import Mathlib.Logic.Relator
import MediaSession.Proofs.Index.Independence

/-!
Indexes that agree up to the identities in them. A relation pairs off the identities of two indexes, and what is
registered in one is registered in the other below the partner of its scope. Calls about partners keep it so, and tell
the same of both.
-/
namespace MediaSession

variable {link : PlacementId → PlacementId → Prop}

/-- Whatever is registered has a partner, and so has its scope. -/
structure Table.Mirrors (link : PlacementId → PlacementId → Prop) (table other : Table) : Prop where
  root : link table.root other.root
  scope_iff : ∀ {id twin scope around}, link id twin → link scope around →
    (table.scope? id = some scope ↔ other.scope? twin = some around)
  paired : ∀ {id}, table.contains id = true → ∃ twin, link id twin
  pairing : ∀ {twin}, other.contains twin = true → ∃ id, link id twin

theorem Table.unique_flip (unique : Relator.BiUnique link) : Relator.BiUnique (flip link) :=
  ⟨fun _ _ _ one other => unique.2 one other, fun _ _ _ one other => unique.1 one other⟩

namespace Table.Mirrors
variable {table other : Table} {id twin scope around : PlacementId}

theorem symm (mirrors : Mirrors link table other) : Mirrors (flip link) other table where
  root := mirrors.root
  scope_iff pair outer := (mirrors.scope_iff pair outer).symm
  paired := mirrors.pairing
  pairing := mirrors.paired

theorem contains (mirrors : Mirrors link table other) (valid : table.Consistent) (pair : link id twin)
    (registered : table.contains id = true) : other.contains twin = true := by
  obtain ⟨scope, inside⟩ := (Table.contains_iff_scope? ..).mp registered
  obtain ⟨around, outer⟩ := mirrors.paired (valid.contains_scope inside)
  exact contains_of_scope? ((mirrors.scope_iff pair outer).mp inside)

section Partners
variable (mirrors : Mirrors link table other) (unique : Relator.BiUnique link) (valid : table.Consistent)
  (sane : other.Consistent)
include mirrors valid sane

theorem contains_iff (pair : link id twin) : table.contains id = true ↔ other.contains twin = true :=
  ⟨mirrors.contains valid pair, mirrors.symm.contains sane pair⟩

include unique

omit valid sane in
theorem root_iff (pair : link id twin) : id = table.root ↔ twin = other.root := by
  constructor
  · rintro rfl
    exact unique.2 pair mirrors.root
  · rintro rfl
    exact unique.1 pair mirrors.root

theorem lists_iff (outer : link scope around) (pair : link id twin) :
    table.Lists scope id ↔ other.Lists around twin := by
  rw [Lists, Lists, valid.mem_members_iff, sane.mem_members_iff, Ne, Ne, mirrors.root_iff unique pair,
    mirrors.scope_iff pair outer]

theorem members_eq_nil (outer : link scope around) (leaf : table.members scope = []) : other.members around = [] := by
  rw [List.eq_nil_iff_forall_not_mem]
  intro twin listed
  obtain ⟨id, pair⟩ := mirrors.pairing (sane.contains_member listed)
  have inside : id ∈ table.members scope := (mirrors.lists_iff unique valid sane outer pair).mpr listed
  rw [leaf] at inside
  cases inside

/-- What is reached in one index is registered there, so that all of the way has partners. -/
theorem reaches (outer : link scope around) (pair : link id twin)
    (route : Relation.ReflTransGen table.Lists scope id) : Relation.ReflTransGen other.Lists around twin := by
  induction route generalizing twin with
  | refl => exact unique.2 outer pair ▸ .refl
  | @tail middle id _ listed ih =>
    have inside := (valid.mem_members_iff.mp listed).2
    obtain ⟨between, halfway⟩ := mirrors.paired (valid.contains_scope inside)
    exact (ih halfway).tail ((mirrors.lists_iff unique valid sane halfway pair).mp listed)

theorem cleared (outer : link scope around) (pair : link id twin) (out : table.Cleared scope id) :
    other.Cleared around twin :=
  ⟨mt (mirrors.root_iff unique pair).mpr out.1, mirrors.reaches unique valid sane outer pair out.2⟩

omit sane in
theorem ascent {chain : List PlacementId} (pair : link id twin) (ascent : table.Ascent id chain) :
    ∃ image, other.Ascent twin image ∧ image.length = chain.length := by
  induction ascent generalizing twin with
  | root =>
    obtain rfl := (mirrors.root_iff unique pair).mp rfl
    exact ⟨[other.root], .root, rfl⟩
  | @scope id scope above inside inner _ ih =>
    obtain ⟨around, outer⟩ := mirrors.paired (valid.contains_scope inside)
    obtain ⟨image, ascent, length⟩ := ih outer
    refine ⟨twin :: image, .scope ((mirrors.scope_iff pair outer).mp inside) ?_ ascent, ?_⟩
    · exact mt (mirrors.root_iff unique pair).mpr inner
    · rw [List.length_cons, List.length_cons, length]

omit sane in
theorem liesBeyond {limit : Nat} (pair : link id twin) (beyond : table.LiesBeyond limit id) :
    other.LiesBeyond limit twin := by
  obtain ⟨registered, inner, depth, ⟨chain, ascent, length⟩, deep⟩ := beyond
  obtain ⟨image, same, equal⟩ := mirrors.ascent unique valid pair ascent
  exact ⟨mirrors.contains valid pair registered, mt (mirrors.root_iff unique pair).mpr inner, depth,
    ⟨image, same, equal.trans length⟩, deep⟩

omit sane in
/-- Partners are registered in pairs. -/
theorem size_le : table.size ≤ other.size := by
  choose! partner pairs using fun id (registered : table.contains id = true) => mirrors.paired registered
  have distinct : (table.entries.keys.map partner).Nodup := by
    refine List.Nodup.map_on ?_ Std.TreeMap.nodup_keys
    intro one here second there same
    have first := pairs one ((mem_keys_iff ..).mp here)
    exact unique.1 first (same ▸ pairs second ((mem_keys_iff ..).mp there))
  have within : table.entries.keys.map partner ⊆ other.entries.keys := by
    intro twin member
    obtain ⟨id, here, rfl⟩ := List.mem_map.mp member
    have registered := (mem_keys_iff ..).mp here
    exact (mem_keys_iff ..).mpr (mirrors.contains valid (pairs id registered) registered)
  have fewer := distinct.length_le_of_subset within
  rw [List.length_map] at fewer
  rw [size_eq_length_keys, size_eq_length_keys]
  exact fewer

end Partners

theorem size_eq (mirrors : Mirrors link table other) (unique : Relator.BiUnique link) (valid : table.Consistent)
    (sane : other.Consistent) : table.size = other.size :=
  Nat.le_antisymm (mirrors.size_le unique valid) (mirrors.symm.size_le (unique_flip unique) sane)

end Table.Mirrors

/-- Two new tables, with partners as their roots. -/
theorem Table.ofRoot_mirrors {root twin : Placement} (unique : Relator.BiUnique link) (pair : link root.id twin.id) :
    (ofRoot root).Mirrors link (ofRoot twin) where
  root := pair
  scope_iff {id copy scope around} same outer := by
    have partners {held other : PlacementId} (paired : link held other) : root.id = held ↔ twin.id = other :=
      ⟨fun alike => unique.2 (alike ▸ pair) paired, fun alike => unique.1 (alike ▸ pair) paired⟩
    rw [scope?_ofRoot_iff, scope?_ofRoot_iff, partners same, partners outer]
  paired registered := ⟨twin.id, (contains_ofRoot_iff ..).mp registered ▸ pair⟩
  pairing registered := ⟨root.id, (contains_ofRoot_iff ..).mp registered ▸ pair⟩

namespace IndexCall

/-- Calls about partners. -/
inductive Mirrors (link : PlacementId → PlacementId → Prop) : IndexCall → IndexCall → Prop where
  | insert {placement twin : Placement} {scope around : PlacementId} (pair : link placement.id twin.id)
      (outer : link scope around) : Mirrors link (.insert placement scope) (.insert twin around)
  | remove {id twin : PlacementId} (pair : link id twin) : Mirrors link (.remove id) (.remove twin)
  | clearScope {scope around : PlacementId} (outer : link scope around) :
      Mirrors link (.clearScope scope) (.clearScope around)

variable {call twinCall : IndexCall} {index other after last : Index} {id twin : PlacementId}

theorem Mirrors.symm (calls : Mirrors link call twinCall) : Mirrors (flip link) twinCall call := by
  cases calls with
  | insert pair outer => exact .insert pair outer
  | remove pair => exact .remove pair
  | clearScope outer => exact .clearScope outer

theorem Mirrors.touches (calls : Mirrors link call twinCall) (mirrors : index.table.Mirrors link other.table)
    (unique : Relator.BiUnique link) (valid : index.table.Consistent) (sane : other.table.Consistent)
    (pair : link id twin) (touched : call.Touches index id) : twinCall.Touches other twin := by
  cases calls with
  | insert made outer =>
    obtain ⟨rfl, registered⟩ := touched
    exact ⟨unique.2 pair made, mirrors.contains valid outer registered⟩
  | remove gone =>
    obtain ⟨rfl, inner, leaf⟩ := touched
    refine ⟨unique.2 pair gone, mt (mirrors.root_iff unique gone).mpr inner, ?_⟩
    exact mirrors.members_eq_nil unique valid sane gone leaf
  | clearScope outer =>
    exact ⟨mirrors.contains valid outer touched.1, mirrors.cleared unique valid sane outer pair touched.2⟩

theorem Mirrors.leaves_iff (calls : Mirrors link call twinCall) (unique : Relator.BiUnique link)
    {scope around : PlacementId} (outer : link scope around) :
    call.leaves.map Entry.scope = some scope ↔ twinCall.leaves.map Entry.scope = some around := by
  cases calls with
  | insert _ within =>
    simp only [leaves, Option.map_some, Option.some.injEq]
    constructor
    · rintro rfl
      exact unique.2 within outer
    · rintro rfl
      exact unique.1 within outer
  | remove _ | clearScope _ => exact iff_of_false nofun nofun

/-- What calls about partners leave behind. -/
theorem Mirrors.performed (calls : Mirrors link call twinCall) (mirrors : index.table.Mirrors link other.table)
    (unique : Relator.BiUnique link) (valid : index.table.Consistent) (sane : other.table.Consistent)
    (performs : Performs index call after) (twins : Performs other twinCall last)
    (paired : ∀ {id}, after.table.contains id = true → ∃ twin, link id twin)
    (pairing : ∀ {twin}, last.table.contains twin = true → ∃ id, link id twin) :
    after.table.Mirrors link last.table where
  root := by
    have one : after.table.root = index.table.root := performs.rootId_eq
    have another : last.table.root = other.table.root := twins.rootId_eq
    rw [one, another]
    exact mirrors.root
  scope_iff {id twin scope around} pair outer := by
    have same : call.Touches index id ↔ twinCall.Touches other twin :=
      ⟨calls.touches mirrors unique valid sane pair,
        calls.symm.touches mirrors.symm (Table.unique_flip unique) sane valid pair⟩
    by_cases touched : call.Touches index id
    · rw [Table.scope?, Table.scope?, performs.touched id touched, twins.touched twin (same.mp touched)]
      exact calls.leaves_iff unique outer
    · rw [Table.scope?, Table.scope?, performs.untouched id touched, twins.untouched twin (mt same.mpr touched)]
      exact mirrors.scope_iff pair outer
  paired := paired
  pairing := pairing

end IndexCall

end MediaSession
