import MediaSession.ObjectRef
import MediaSession.Proofs.Results
import MediaSession.Proofs.Table.Update

/-!
Calls that change an index. A call that succeeds has one of four effects on the tables, and later proofs
know no more about a call than its effect.
-/
namespace MediaSession

/-- One call that may change an index. References are taken in whatever state the caller holds them. -/
inductive Mutation where
  | insert (placement : Placement) (scope : PlacementId)
  | insertAs (view : ViewType) (placement : Placement) (scope : PlacementId)
  | attach (reference : ObjectRef) (view : ViewType) (placement : Placement)
  | remove (id : PlacementId)
  | clearScope (id : PlacementId)
  | purge (reference : ObjectRef)
  | clear
  | editPin (id : PlacementId) (edits : List PinEdit)
  | editPinThrough (reference : PlacementRef) (edits : List PinEdit)

/-- What a successful call has done. -/
inductive Event where
  | inserted (placement : Placement) (scope : PlacementId)
  | pinned (id : PlacementId) (edits : List PinEdit)
  | removed (id : PlacementId)
  | cleared (scope : PlacementId)
deriving DecidableEq

namespace Mutation

/-- The index after the call, and what the call has done; nothing if there was nothing to remove. -/
def apply (index : Index) : Mutation → Except SessionError (Index × Option Event)
  | insert placement scope => do
    let (after, _) ← index.insert placement scope
    return (after, some (.inserted placement scope))
  | insertAs view placement scope => do
    let (after, _) ← index.insertAs view placement scope
    return (after, some (.inserted placement scope))
  | attach reference view placement => do
    let _ ← (reference.attach index view placement).1
    return ((reference.attach index view placement).2, reference.id.map (.inserted placement))
  | remove id => do
    let (after, removed) ← index.remove id
    return (after, removed.map fun _ => .removed id)
  | clearScope id => do
    let (after, _) ← index.clearScope id
    return (after, some (.cleared id))
  | purge reference => do
    let (after, _) ← reference.purge index
    return (after, reference.id.map .cleared)
  | clear => .ok (index.clear.1, some (.cleared index.rootId))
  | editPin id edits => do
    let after ← index.editPin id edits
    return (after, some (.pinned id edits))
  | editPinThrough reference edits => do
    let after ← reference.editPin index edits
    return (after, reference.id.map fun id => .pinned id edits)

/-- Identities of the placements handed over for insertion, whether or not it succeeds. -/
def offered : Mutation → List PlacementId
  | insert placement _ | insertAs _ placement _ | attach _ _ placement => [placement.id]
  | _ => []

end Mutation

namespace Table

/-- In the scope, however deep, or the scope itself; the root never counts. -/
def Cleared (table : Table) (scope id : PlacementId) : Prop :=
  id ≠ table.root ∧ Relation.ReflTransGen table.Lists scope id

/-- The tables after an event. -/
inductive Effect (table : Table) : Option Event → Table → Prop where
  | nothing : Effect table none table
  | inserted {placement : Placement} {scope : PlacementId} (registered : table.contains scope = true) :
      Effect table (some (.inserted placement scope)) (table.add placement scope)
  | pinned {id : PlacementId} {edits : List PinEdit} (registered : table.contains id = true) :
      Effect table (some (.pinned id edits)) (table.editPin id edits)
  | removed {id : PlacementId} {rest : Table} (inner : id ≠ table.root)
      (leaf : table.members id = []) (pruned : Prunes table rest (· = id)) :
      Effect table (some (.removed id)) rest
  | cleared {scope : PlacementId} {rest : Table} (pruned : Prunes table rest (table.Cleared scope)) :
      Effect table (some (.cleared scope)) rest

variable {table rest : Table}

theorem Effect.root_eq {event : Option Event} (effect : Effect table event rest) : rest.root = table.root := by
  cases effect with
  | nothing => rfl
  | inserted _ => rfl
  | pinned _ => exact root_editPin ..
  | removed _ _ pruned => exact pruned.root_eq
  | cleared pruned => exact pruned.root_eq

theorem Effect.eq_of_none (effect : Effect table none rest) : rest = table := by
  cases effect with
  | nothing => rfl

theorem Effect.contains_of_inserted {placement : Placement} {scope : PlacementId}
    (effect : Effect table (some (.inserted placement scope)) rest) : table.contains scope = true := by
  cases effect with
  | inserted registered => exact registered

/-- Entries after an event that it did not insert were there before it, with the same object in the same
scope. -/
theorem Effect.entry_kept {event : Option Event} (effect : Effect table event rest) {id : PlacementId}
    {entry : Entry} (old : ∀ {placement scope}, event = some (.inserted placement scope) → placement.id ≠ id)
    (found : rest.entry? id = some entry) :
    ∃ before, table.entry? id = some before ∧ before.scope = entry.scope ∧
      before.placement.object = entry.placement.object := by
  cases effect with
  | nothing => exact ⟨entry, found, rfl, rfl⟩
  | inserted _ =>
    rw [entry?_add, if_neg (old rfl)] at found
    exact ⟨entry, found, rfl, rfl⟩
  | pinned _ =>
    rw [entry?_editPin] at found
    split at found
    · obtain ⟨before, earlier, edited⟩ := Option.map_eq_some_iff.mp found
      subst edited
      exact ⟨before, earlier, rfl, rfl⟩
    · exact ⟨entry, found, rfl, rfl⟩
  | removed _ _ pruned | cleared pruned => exact ⟨entry, pruned.entry?_of_some found, rfl, rfl⟩

theorem cleared_closed (valid : table.Consistent) (root within other : PlacementId)
    (out : table.Cleared root within) (listed : other ∈ table.members within) : table.Cleared root other :=
  ⟨(valid.mem_members_iff.mp listed).1, out.2.tail listed⟩

/-- Whatever a call does, the tables describe one tree afterwards, if what it inserts is new. -/
theorem Effect.consistent {event : Option Event} (effect : Effect table event rest) (valid : table.Consistent)
    (fresh : ∀ {placement scope}, event = some (.inserted placement scope) →
      table.contains placement.id ≠ true) : rest.Consistent := by
  cases effect with
  | nothing => exact valid
  | inserted registered => exact valid.add (fresh rfl) registered
  | pinned _ => exact valid.editPin _ _
  | removed inner leaf pruned =>
    refine pruned.consistent valid (Ne.symm inner) ?_
    intro scope other same listed
    rw [same, leaf] at listed
    cases listed
  | cleared pruned => exact pruned.consistent valid (fun out => out.1 rfl) (cleared_closed valid _)

end Table

namespace Index
variable {index after : Index}

theorem insert_ok {placement : Placement} {scope id : PlacementId}
    (success : index.insert placement scope = .ok (after, id)) :
    index.table.contains scope = true ∧ id = placement.id ∧
      after = { index with table := index.table.add placement scope } := by
  unfold Index.insert at success
  split at success
  · rename_i registered
    cases success
    exact ⟨registered, rfl, rfl⟩
  · cases success

theorem insertAs_ok {view : ViewType} {placement : Placement} {scope : PlacementId} {reference : PlacementRef}
    (success : index.insertAs view placement scope = .ok (after, reference)) :
    index.insert placement scope = .ok (after, placement.id) ∧ reference = ⟨view, some placement.id⟩ := by
  unfold insertAs at success
  split at success
  · obtain ⟨⟨next, id⟩, inserted, same⟩ := bind_ok_iff.mp success
    cases same
    obtain ⟨_, rfl, _⟩ := insert_ok inserted
    exact ⟨inserted, rfl⟩
  · cases success

theorem find_ok {id : PlacementId} {placement : Placement} (success : index.find id = .ok placement) :
    ∃ entry, index.table.entry? id = some entry ∧ entry.placement = placement := by
  unfold find at success
  split at success
  · rename_i entry found
    exact ⟨entry, found, Except.ok.inj success⟩
  · cases success

theorem find_missing {id : PlacementId} (missing : index.contains id ≠ true) :
    index.find id = .error (.notInSession id) := by
  rw [find, Table.entry?_eq_none missing]

theorem find_registered {id : PlacementId} (registered : index.contains id = true) :
    ∃ placement, index.find id = .ok placement := by
  obtain ⟨entry, found⟩ := (Table.contains_iff _ id).mp registered
  exact ⟨entry.placement, by rw [find, found]⟩

theorem scopeOf_ok_iff (index : Index) (id scope : PlacementId) :
    index.scopeOf id = .ok scope ↔ index.table.scope? id = some scope := by
  unfold scopeOf Table.scope?
  cases index.table.entry? id <;> simp

theorem findAs_ok {view : ViewType} {id : PlacementId} {placement : Placement}
    (success : index.findAs view id = .ok placement) : index.find id = .ok placement := by
  obtain ⟨present, found, admitted⟩ := bind_ok_iff.mp success
  split at admitted
  · cases admitted
    exact found
  · cases admitted

theorem editPin_ok {id : PlacementId} {edits : List PinEdit} (success : index.editPin id edits = .ok after) :
    index.table.contains id = true ∧ after = { index with table := index.table.editPin id edits } := by
  obtain ⟨placement, found, same⟩ := bind_ok_iff.mp success
  obtain ⟨entry, present, _⟩ := find_ok found
  exact ⟨(index.table.contains_iff id).mpr ⟨entry, present⟩, (Except.ok.inj same).symm⟩

/-- A removal that succeeds is not of the root, and either found nothing or took out a placement without members. -/
theorem remove_ok {id : PlacementId} {removed : Option Placement}
    (success : index.remove id = .ok (after, removed)) :
    id ≠ index.rootId ∧
      ((after = index ∧ removed = none ∧ index.contains id ≠ true) ∨
        ∃ entry, index.table.entry? id = some entry ∧ index.members id = [] ∧
          removed = some entry.placement ∧
          after = { index with table := index.table.removeEntry id entry.scope }) := by
  unfold remove at success
  split at success
  · cases success
  · rename_i inner
    refine ⟨inner, ?_⟩
    split at success
    · rename_i missing
      cases success
      refine .inl ⟨rfl, rfl, fun registered => ?_⟩
      obtain ⟨entry, found⟩ := (Table.contains_iff _ id).mp registered
      cases missing.symm.trans found
    · rename_i entry found
      split at success
      · cases success
      · rename_i none
        cases success
        have leaf : index.members id = [] := List.length_eq_zero_iff.mp (Nat.eq_zero_of_not_pos none)
        exact .inr ⟨entry, found, leaf, rfl, rfl⟩

theorem clear_effect (valid : index.table.Consistent) :
    Table.Effect index.table (some (.cleared index.rootId)) index.clear.1.table := by
  refine .cleared ((Table.removeBelow_prunes valid index.rootId).congr fun id => ?_)
  rw [Table.Cleared, Relation.reflTransGen_iff_eq_or_transGen]
  constructor
  · rintro ⟨inner, same | below⟩
    · exact absurd same inner
    · exact below
  · intro below
    exact ⟨(valid.scope_of_below below).1, .inr below⟩

theorem clearScope_effect (valid : index.table.Consistent) {id : PlacementId} {removed : List Placement} {count : Nat}
    (success : index.clearScope id = .ok (after, removed, count)) :
    after.maxPathDepth = index.maxPathDepth ∧
      Table.Effect index.table (some (.cleared id)) after.table := by
  unfold clearScope at success
  split at success
  · rename_i same
    subst same
    cases success
    exact ⟨rfl, clear_effect valid⟩
  · rename_i inner
    split at success
    · rename_i registered
      cases success
      refine ⟨rfl, .cleared ((Table.removeAll_prunes valid registered).congr fun other => ?_)⟩
      rw [Table.Cleared, and_iff_right_iff_imp, Relation.reflTransGen_iff_eq_or_transGen]
      rintro (same | below)
      · exact same ▸ inner
      · exact (valid.scope_of_below below).1
    · cases success

end Index

namespace ObjectRef
variable {index after : Index}

theorem activate_found {reference : ObjectRef} {id : PlacementId} {placement : Placement}
    (elsewhere : ¬ (reference.id = some id ∧ index.contains id = true)) (found : index.find id = .ok placement) :
    reference.activate index id =
      if placement.admits reference.view then .ok (active reference.view id placement.object)
      else .error (.invalidReference id reference.view) := by
  rw [activate, if_neg elsewhere, found]
  dsimp only [bind, Except.bind]
  rw [Placement.share_eq]
  by_cases fits : placement.admits reference.view = true
  · rw [if_pos fits, if_pos fits]
    rfl
  · rw [if_neg fits, if_neg fits]

theorem attach_inactive {reference : ObjectRef} (view : ViewType) (child : Placement) (unbound : reference.id = none) :
    reference.attach index view child = (.error .inactiveReference, index) := by
  rw [attach, unbound]

/-- The checks are made before the placement is inserted; after that the new reference to it can not fail, so that a
call that fails leaves the index as it is. -/
theorem attach_bound {reference : ObjectRef} {scope : PlacementId} (view : ViewType) (child : Placement)
    (bound : reference.id = some scope) :
    reference.attach index view child =
      if child.admits view then
        if index.contains scope then
          (.ok (active view child.id child.object), { index with table := index.table.add child scope })
        else (.error (.invalidScope (.noSuchScope child scope)), index)
      else (.error (.invalidReference child.id view), index) := by
  rw [attach, bound]
  dsimp only
  by_cases admits : child.admits view = true
  · rw [if_pos admits, if_pos admits]
    by_cases registered : index.contains scope = true
    · have found : Index.find { index with table := index.table.add child scope } child.id = .ok child := by
        rw [Index.find, Table.entry?_add, if_pos rfl]
      have led : (inactive view).activate { index with table := index.table.add child scope } child.id =
          .ok (active view child.id child.object) := by
        rw [activate_found (fun already => by cases already.1) found]
        exact if_pos admits
      rw [Index.insert, if_pos registered, if_pos registered, ← led]
    · rw [Index.insert, if_neg registered, if_neg registered]
  · rw [if_neg admits, if_neg admits]

theorem attach_ok {reference attached : ObjectRef} {view : ViewType} {placement : Placement}
    (success : (reference.attach index view placement).1 = .ok attached) :
    ∃ scope, reference.id = some scope ∧
      index.insert placement scope = .ok ((reference.attach index view placement).2, placement.id) ∧
      placement.admits view = true ∧ attached = active view placement.id placement.object := by
  cases bound : reference.id with
  | none =>
    rw [attach_inactive view placement bound] at success
    cases success
  | some scope =>
    rw [attach_bound view placement bound] at success ⊢
    split at success
    · rename_i admits
      split at success
      · rename_i registered
        cases success
        rw [if_pos admits, if_pos registered]
        exact ⟨scope, rfl, if_pos registered, admits, rfl⟩
      · cases success
    · cases success

theorem attach_failed {reference : ObjectRef} {view : ViewType} {placement : Placement} {error : SessionError}
    (failed : (reference.attach index view placement).1 = .error error) :
    (reference.attach index view placement).2 = index := by
  cases bound : reference.id with
  | none => rw [attach_inactive view placement bound]
  | some scope =>
    rw [attach_bound view placement bound] at failed ⊢
    split
    · rename_i admits
      rw [if_pos admits] at failed
      split
      · rename_i registered
        rw [if_pos registered] at failed
        cases failed
      · rfl
    · rfl

theorem purge_effect (valid : index.table.Consistent) {reference : ObjectRef} {removed : List Placement} {count : Nat}
    (success : reference.purge index = .ok (after, removed, count)) :
    after.maxPathDepth = index.maxPathDepth ∧
      Table.Effect index.table (reference.id.map .cleared) after.table := by
  unfold purge at success
  cases bound : reference.id with
  | none =>
    simp only [bound, Except.ok.injEq, Prod.mk.injEq] at success
    obtain ⟨same, _⟩ := success
    subst same
    exact ⟨rfl, .nothing⟩
  | some id =>
    simp only [bound] at success
    split at success
    · exact Index.clearScope_effect valid success
    · rename_i missing
      cases success
      have absent {other : PlacementId} (out : index.table.Cleared id other) : other = id := by
        rcases Relation.ReflTransGen.cases_head out.2 with same | ⟨member, listed, _⟩
        · exact same.symm
        · rw [Table.Lists, valid.members_eq_nil missing] at listed
          cases listed
      refine ⟨rfl, .cleared ⟨rfl, ?_, fun _ => rfl, ?_, fun _ => rfl, fun empty => empty⟩⟩
      · intro other out
        rw [absent out]
        exact Table.entry?_eq_none missing
      · intro scope other out listed
        rw [absent out] at listed
        exact missing (valid.contains_member listed)

end ObjectRef

namespace PlacementRef
variable {index after : Index}

theorem resolve_ok {reference : PlacementRef} {placement : Placement}
    (success : reference.resolve index = .ok placement) :
    ∃ id, reference.id = some id ∧ index.find id = .ok placement := by
  obtain ⟨id, bound, found⟩ := bind_ok_iff.mp success
  unfold locate at bound
  split at bound
  · rename_i present
    cases bound
    exact ⟨id, present, Index.findAs_ok found⟩
  · cases bound

theorem editPin_ok (valid : index.table.Consistent) {reference : PlacementRef} {edits : List PinEdit}
    (success : reference.editPin index edits = .ok after) :
    ∃ id, reference.id = some id ∧ index.editPin id edits = .ok after := by
  obtain ⟨placement, resolved, edited⟩ := bind_ok_iff.mp success
  obtain ⟨id, bound, found⟩ := resolve_ok resolved
  obtain ⟨entry, present, same⟩ := Index.find_ok found
  subst same
  rw [valid.keyed present] at edited
  exact ⟨id, bound, edited⟩

end PlacementRef

namespace Mutation
variable {index after : Index} {mutation : Mutation} {event : Option Event}

/-- A successful call has the effect it reports, and leaves the depth limit alone. -/
theorem apply_effect (valid : index.table.Consistent) (success : mutation.apply index = .ok (after, event)) :
    after.maxPathDepth = index.maxPathDepth ∧ Table.Effect index.table event after.table := by
  cases mutation with
  | insert placement scope =>
    obtain ⟨⟨next, id⟩, inserted, same⟩ := bind_ok_iff.mp success
    cases same
    obtain ⟨registered, _, rfl⟩ := Index.insert_ok inserted
    exact ⟨rfl, .inserted registered⟩
  | insertAs view placement scope =>
    obtain ⟨⟨next, reference⟩, inserted, same⟩ := bind_ok_iff.mp success
    cases same
    obtain ⟨registered, _, rfl⟩ := Index.insert_ok (Index.insertAs_ok inserted).1
    exact ⟨rfl, .inserted registered⟩
  | attach reference view placement =>
    obtain ⟨child, attached, same⟩ := bind_ok_iff.mp success
    cases same
    obtain ⟨scope, bound, inserted, _⟩ := ObjectRef.attach_ok attached
    obtain ⟨registered, _, after⟩ := Index.insert_ok inserted
    rw [bound, after]
    exact ⟨rfl, .inserted registered⟩
  | remove id =>
    obtain ⟨⟨next, removed⟩, succeeded, same⟩ := bind_ok_iff.mp success
    cases same
    obtain ⟨inner, ⟨rfl, rfl, _⟩ | ⟨entry, found, leaf, rfl, rfl⟩⟩ := Index.remove_ok succeeded
    · exact ⟨rfl, .nothing⟩
    · exact ⟨rfl, .removed inner leaf (Table.removeEntry_prunes valid (Table.scope?_of_found found))⟩
  | clearScope id =>
    obtain ⟨⟨next, removed, count⟩, cleared, same⟩ := bind_ok_iff.mp success
    cases same
    exact Index.clearScope_effect valid cleared
  | purge reference =>
    obtain ⟨⟨next, removed, count⟩, purged, same⟩ := bind_ok_iff.mp success
    cases same
    exact ObjectRef.purge_effect valid purged
  | clear =>
    cases success
    exact ⟨rfl, Index.clear_effect valid⟩
  | editPin id edits =>
    obtain ⟨next, edited, same⟩ := bind_ok_iff.mp success
    cases same
    obtain ⟨registered, rfl⟩ := Index.editPin_ok edited
    exact ⟨rfl, .pinned registered⟩
  | editPinThrough reference edits =>
    obtain ⟨next, edited, same⟩ := bind_ok_iff.mp success
    cases same
    obtain ⟨id, bound, edited⟩ := PlacementRef.editPin_ok valid edited
    obtain ⟨registered, rfl⟩ := Index.editPin_ok edited
    rw [bound]
    exact ⟨rfl, .pinned registered⟩

/-- What a call inserts was handed over to it. -/
theorem inserted_offered {placement : Placement} {scope : PlacementId}
    (success : mutation.apply index = .ok (after, some (.inserted placement scope))) :
    placement.id ∈ mutation.offered := by
  cases mutation with
  | attach reference view child =>
    obtain ⟨_, _, same⟩ := bind_ok_iff.mp success
    have reported := congrArg Prod.snd (Except.ok.inj same)
    obtain ⟨_, _, made⟩ := Option.map_eq_some_iff.mp reported
    cases made
    exact List.mem_singleton_self _
  | insert child within | insertAs view child within =>
    obtain ⟨_, _, same⟩ := bind_ok_iff.mp success
    cases same
    exact List.mem_singleton_self _
  | remove id | purge reference | editPinThrough reference edits =>
    obtain ⟨_, _, same⟩ := bind_ok_iff.mp success
    have reported := congrArg Prod.snd (Except.ok.inj same)
    obtain ⟨_, _, made⟩ := Option.map_eq_some_iff.mp reported
    cases made
  | clearScope id | editPin id edits =>
    obtain ⟨_, _, same⟩ := bind_ok_iff.mp success
    cases same
  | clear => cases success

end Mutation

end MediaSession
