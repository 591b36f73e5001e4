import MediaSession.Proofs.Table.Lookup
import MediaSession.Proofs.Table.Values
import Mathlib.Logic.Relation

/-!
What the removal worklist takes out of any pair of tables, whether or not they describe a tree: exactly
what can be reached by memberships. Every member list is taken at most once, so the fuel suffices also
where lists run in circles or name an identity twice.
-/
namespace MediaSession.Table

/-- The identity is listed directly within the scope. -/
def Lists (table : Table) (scope id : PlacementId) : Prop := id ∈ table.members scope

/-- Reached from a scope by one or more memberships. -/
def Below (table : Table) (scope id : PlacementId) : Prop := Relation.TransGen table.Lists scope id

/-- Reached from one of several identities by any number of memberships. -/
def Reached (table : Table) (starts : List PlacementId) (id : PlacementId) : Prop :=
  ∃ start ∈ starts, Relation.ReflTransGen table.Lists start id

/-- The second table lacks the entries and the member lists of what is gone, and is else the same. -/
structure Swept (table rest : Table) (gone : PlacementId → Prop) : Prop where
  root_eq : rest.root = table.root
  entry_gone : ∀ {id}, gone id → rest.entry? id = none
  entry_kept : ∀ {id}, ¬ gone id → rest.entry? id = table.entry? id
  contents_gone : ∀ {id}, gone id → rest.contents[id]? = none
  contents_kept : ∀ {id}, ¬ gone id → rest.contents[id]? = table.contents[id]?

/-- The second table has lost the member list of one identity and no other. -/
def CutAt (table rest : Table) (id : PlacementId) : Prop := rest.contents = table.contents.erase id

section Cut
variable {table rest : Table} {id : PlacementId}

theorem CutAt.contents (cut : CutAt table rest id) (other : PlacementId) :
    rest.contents[other]? = if id = other then none else table.contents[other]? := by
  rw [cut, Std.TreeMap.getElem?_erase]
  simp

theorem CutAt.members (cut : CutAt table rest id) (other : PlacementId) :
    rest.members other = if id = other then [] else table.members other := by
  rw [members_eq, cut.contents]
  split <;> simp [members_eq]

theorem CutAt.lists (cut : CutAt table rest id) {scope member : PlacementId}
    (listed : rest.Lists scope member) : table.Lists scope member := by
  rw [Lists, cut.members] at listed
  split at listed
  · simp at listed
  · exact listed

theorem CutAt.route (cut : CutAt table rest id) {start target : PlacementId}
    (route : Relation.ReflTransGen rest.Lists start target) :
    Relation.ReflTransGen table.Lists start target :=
  Relation.ReflTransGen.mono (fun _ _ => cut.lists) _ _ route

/-- A route of memberships either never leaves through the cut or goes on from one of the lost members. -/
theorem CutAt.reach (cut : CutAt table rest id) {start target : PlacementId}
    (route : Relation.ReflTransGen table.Lists start target) :
    Relation.ReflTransGen rest.Lists start target ∨ rest.Reached (table.members id) target := by
  induction route using Relation.ReflTransGen.head_induction_on with
  | refl => exact .inl .refl
  | @head scope member listed _ ih =>
    rcases ih with onward | lost
    · by_cases same : id = scope
      · subst same
        exact .inr ⟨member, listed, onward⟩
      · have still : rest.Lists scope member := by
          rw [Lists, cut.members, if_neg same]
          exact listed
        exact .inl (.head still onward)
    · exact .inr lost

theorem CutAt.reached_cons_iff (cut : CutAt table rest id) (pending : List PlacementId)
    (target : PlacementId) :
    table.Reached (id :: pending) target ↔
      target = id ∨ rest.Reached ((table.members id).reverse ++ pending) target := by
  constructor
  · rintro ⟨start, member, route⟩
    rcases cut.reach route with onward | ⟨lost, listed, onward⟩
    · rcases List.mem_cons.mp member with same | waiting
      · subst same
        rcases Relation.ReflTransGen.cases_head onward with same | ⟨next, step, _⟩
        · exact .inl same.symm
        · rw [Lists, cut.members, if_pos rfl] at step
          simp at step
      · exact .inr ⟨start, List.mem_append_right _ waiting, onward⟩
    · exact .inr ⟨lost, List.mem_append_left _ (List.mem_reverse.mpr listed), onward⟩
  · rintro (same | ⟨start, member, route⟩)
    · exact ⟨id, List.mem_cons_self .., same ▸ .refl⟩
    · have whole := cut.route route
      rcases List.mem_append.mp member with listed | waiting
      · exact ⟨id, List.mem_cons_self .., .head (List.mem_reverse.mp listed) whole⟩
      · exact ⟨start, List.mem_cons_of_mem _ waiting, whole⟩

theorem CutAt.below_iff (cut : CutAt table rest id) (target : PlacementId) :
    table.Below id target ↔ rest.Reached (table.members id) target := by
  rw [Below, Relation.TransGen.head'_iff]
  constructor
  · rintro ⟨member, listed, route⟩
    rcases cut.reach route with onward | lost
    · exact ⟨member, listed, onward⟩
    · exact lost
  · rintro ⟨member, listed, route⟩
    exact ⟨member, listed, cut.route route⟩

/-- The member list that is cut off, with those that are kept, makes up all memberships. -/
theorem CutAt.memberships_eq (cut : CutAt table rest id) :
    rest.memberships + (table.members id).length = table.memberships := by
  have lengths := ((valuesOf_perm_erase table.contents id).flatMap_right Array.toList).length_eq
  have lost : table.contents[id]?.toList.flatMap Array.toList = table.members id := by
    rw [members_eq]
    cases table.contents[id]? <;> simp
  have all (table : Table) : table.memberships = ((valuesOf table.contents).flatMap Array.toList).length := by
    rw [memberships, listed, valuesOf, List.flatMap_map]
  rw [← cut, List.flatMap_append, List.length_append, lost, ← all, ← all] at lengths
  omega

end Cut

/-- The tables without the entry and the member list of one identity. -/
def takeOut (table : Table) (id : PlacementId) : Table :=
  { table with entries := table.entries.erase id, contents := table.contents.erase id }

theorem takeOut_cutAt (table : Table) (id : PlacementId) : CutAt table (table.takeOut id) id := rfl

theorem entry?_takeOut (table : Table) (id other : PlacementId) :
    entry? (table.takeOut id) other = if id = other then none else table.entry? other := by
  simp [takeOut, entry?, Std.TreeMap.getElem?_erase]

theorem Swept.of_takeOut {table rest : Table} {id : PlacementId} {gone later : PlacementId → Prop}
    (swept : Swept (table.takeOut id) rest later) (gone_iff : ∀ other, gone other ↔ other = id ∨ later other) :
    Swept table rest gone where
  root_eq := swept.root_eq
  entry_gone {other} out := by
    by_cases after : later other
    · exact swept.entry_gone after
    · have same := ((gone_iff other).mp out).resolve_right after
      rw [swept.entry_kept after, entry?_takeOut, if_pos same.symm]
  entry_kept {other} stays := by
    have ⟨different, after⟩ := not_or.mp fun either => stays ((gone_iff other).mpr either)
    rw [swept.entry_kept after, entry?_takeOut, if_neg (Ne.symm different)]
  contents_gone {other} out := by
    by_cases after : later other
    · exact swept.contents_gone after
    · have same := ((gone_iff other).mp out).resolve_right after
      rw [swept.contents_kept after, (takeOut_cutAt table id).contents, if_pos same.symm]
  contents_kept {other} stays := by
    have ⟨different, after⟩ := not_or.mp fun either => stays ((gone_iff other).mpr either)
    rw [swept.contents_kept after, (takeOut_cutAt table id).contents, if_neg (Ne.symm different)]

/-- With fuel for the pending identities and every listed member, the worklist takes out exactly what the
pending identities reach. -/
theorem sweep_swept (fuel : Nat) (table : Table) (pending : List PlacementId) (removed : List Placement)
    (enough : pending.length + table.memberships ≤ fuel) :
    Swept table (sweep fuel table pending removed).1 (table.Reached pending) := by
  induction fuel generalizing table pending removed with
  | zero =>
    have nothing : pending = [] := List.length_eq_zero_iff.mp (by omega)
    subst nothing
    exact ⟨by simp [sweep], by simp [Reached], by simp [sweep], by simp [Reached], by simp [sweep]⟩
  | succ fuel ih =>
    cases pending with
    | nil => exact ⟨by simp [sweep], by simp [Reached], by simp [sweep], by simp [Reached], by simp [sweep]⟩
    | cons id pending =>
      have taken := (takeOut_cutAt table id).memberships_eq
      simp only [List.length_cons] at enough
      rw [sweep]
      have fewer : ((table.members id).reverse ++ pending).length + (table.takeOut id).memberships ≤ fuel := by
        rw [List.length_append, List.length_reverse]
        omega
      exact (ih (table.takeOut id) _ _ fewer).of_takeOut ((takeOut_cutAt table id).reached_cons_iff pending)

/-- Everything below a scope is taken out, and the member list of the scope with it. -/
theorem removeBelow_swept (table : Table) (scope : PlacementId) :
    ∃ cut, CutAt table cut scope ∧ cut.entries = table.entries ∧ cut.root = table.root ∧
      Swept cut (table.removeBelow scope).1 (table.Below scope) := by
  let cut : Table := { table with contents := table.contents.erase scope }
  have lost : CutAt table cut scope := rfl
  have taken := lost.memberships_eq
  have reached : cut.Reached (table.members scope).reverse = table.Below scope := by
    funext id
    rw [lost.below_iff id, Reached, Reached]
    simp only [List.mem_reverse]
  refine ⟨cut, lost, rfl, rfl, ?_⟩
  rw [← reached]
  refine sweep_swept table.memberships cut (table.members scope).reverse [] ?_
  rw [List.length_reverse]
  omega

end MediaSession.Table
