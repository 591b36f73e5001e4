import MediaSession.Proofs.Index.BulkRemoval
import MediaSession.Proofs.Index.Depth

/-!
Calls that can change places. An insertion, a removal and a clearing that have nothing to do with each other's scopes
find the same in either order, answer the same and leave the same behind.
-/
namespace MediaSession

/-- A call that inserts or removes. -/
inductive IndexCall where
  | insert (placement : Placement) (scope : PlacementId)
  | remove (id : PlacementId)
  | clearScope (id : PlacementId)

/-- What is answered to a call that succeeds. -/
inductive IndexAnswer where
  | inserted (id : PlacementId)
  | removed (found : Bool)
  | cleared (count : Nat)
deriving DecidableEq

namespace IndexCall

def attempt (index : Index) : IndexCall → Except SessionError (Index × IndexAnswer)
  | insert placement scope => do
    let (after, id) ← index.insert placement scope
    return (after, .inserted id)
  | remove id => do
    let (after, removed) ← index.remove id
    return (after, .removed removed.isSome)
  | clearScope id => do
    let (after, _, count) ← index.clearScope id
    return (after, .cleared count)

/-- The index after a call, and its answer; a call that fails leaves the index as it is. -/
def perform (call : IndexCall) (index : Index) : Index × Except SessionError IndexAnswer :=
  match call.attempt index with
  | .ok (after, answer) => (after, .ok answer)
  | .error error => (index, .error error)

/-- The scope to insert into, the placement to remove or the scope to clear. -/
def target : IndexCall → PlacementId
  | insert _ scope => scope
  | remove id => id
  | clearScope id => id

/-- What is to be removed or cleared. -/
def withdrawn : IndexCall → List PlacementId
  | insert _ _ => []
  | remove id => [id]
  | clearScope id => [id]

/-- What is to be inserted. -/
def offered : IndexCall → List PlacementId
  | insert placement _ => [placement.id]
  | _ => []

/-- Every identity that a call names. -/
def named (call : IndexCall) : List PlacementId := call.target :: call.offered

/-- What a call removes or clears is neither the target of the other one nor around it, and what it inserts is not
named by the other one. -/
structure Spares (table : Table) (call other : IndexCall) : Prop where
  above : ∀ id ∈ call.withdrawn, id ≠ other.target ∧ ¬ table.Within id other.target
  unnamed : ∀ id ∈ call.offered, id ∉ other.named

/-- Neither of two calls has to do with what the other one is about. -/
structure Independent (table : Table) (one other : IndexCall) : Prop where
  spares : one.Spares table other
  spared : other.Spares table one

theorem Independent.symm {table : Table} {one other : IndexCall} (independent : one.Independent table other) :
    other.Independent table one :=
  ⟨independent.spared, independent.spares⟩

/-- The call changes the entry of an identity. -/
def Touches (index : Index) (id : PlacementId) : IndexCall → Prop
  | insert placement scope => id = placement.id ∧ index.contains scope = true
  | remove other => id = other ∧ other ≠ index.rootId ∧ index.members other = []
  | clearScope scope => index.contains scope = true ∧ index.table.Cleared scope id

/-- The entry that a call leaves where it changes one. -/
def leaves : IndexCall → Option Entry
  | insert placement scope => some ⟨placement, scope⟩
  | _ => none

section Perform
variable {index : Index} {id : PlacementId} {call : IndexCall}

theorem perform_of_ok {after : Index} {answer : IndexAnswer} (success : call.attempt index = .ok (after, answer)) :
    call.perform index = (after, .ok answer) := by
  rw [perform, success]

theorem perform_of_error {error : SessionError} (failed : call.attempt index = .error error) :
    call.perform index = (index, .error error) := by
  rw [perform, failed]

theorem perform_remove_ok {after : Index} {removed : Option Placement}
    (success : index.remove id = .ok (after, removed)) :
    (remove id).perform index = (after, .ok (.removed removed.isSome)) :=
  perform_of_ok (bind_ok_iff.mpr ⟨_, success, rfl⟩ : (remove id).attempt index = _)

theorem perform_remove_error {error : SessionError} (failed : index.remove id = .error error) :
    (remove id).perform index = (index, .error error) :=
  perform_of_error (bind_error_iff.mpr (.inl failed) : (remove id).attempt index = _)

theorem perform_clearScope_ok {after : Index} {removed : List Placement} {count : Nat}
    (success : index.clearScope id = .ok (after, removed, count)) :
    (clearScope id).perform index = (after, .ok (.cleared count)) :=
  perform_of_ok (bind_ok_iff.mpr ⟨_, success, rfl⟩ : (clearScope id).attempt index = _)

theorem perform_clearScope_error {error : SessionError} (failed : index.clearScope id = .error error) :
    (clearScope id).perform index = (index, .error error) :=
  perform_of_error (bind_error_iff.mpr (.inl failed) : (clearScope id).attempt index = _)

theorem clearScope_missing (valid : index.table.Consistent) (missing : index.contains id ≠ true) :
    index.clearScope id = .error (.notInSession id) := by
  have inner : id ≠ index.rootId := fun top => missing (top ▸ valid.contains_root)
  rw [Index.clearScope, if_neg inner, if_neg missing]

theorem perform_insert (index : Index) (placement : Placement) (scope : PlacementId) :
    (insert placement scope).perform index =
      if index.contains scope = true then
        ({ index with table := index.table.add placement scope }, .ok (.inserted placement.id))
      else (index, .error (.invalidScope (.noSuchScope placement scope))) := by
  by_cases registered : index.contains scope = true
  · rw [if_pos registered]
    exact perform_of_ok (bind_ok_iff.mpr ⟨_, if_pos registered, rfl⟩)
  · rw [if_neg registered]
    exact perform_of_error (bind_error_iff.mpr (.inl (if_neg registered)))

theorem answer_remove (index : Index) (id : PlacementId) :
    ((remove id).perform index).2 =
      if id = index.rootId then .error (.modelRoot id)
      else if index.contains id = true then
        if 0 < index.memberCount id then .error (.nonEmptyScope id (index.memberCount id)) else .ok (.removed true)
      else .ok (.removed false) := by
  by_cases top : id = index.rootId
  · have failed : index.remove id = .error (.modelRoot id) := if_pos top
    rw [if_pos top, perform_remove_error failed]
  · rw [if_neg top]
    by_cases registered : index.contains id = true
    · obtain ⟨entry, found⟩ := (Table.contains_iff ..).mp registered
      rw [if_pos registered]
      by_cases inhabited : 0 < index.memberCount id
      · have failed : index.remove id = .error (.nonEmptyScope id (index.memberCount id)) := by
          rw [Index.remove, if_neg top, found]
          exact if_pos inhabited
        rw [if_pos inhabited, perform_remove_error failed]
      · have success : ∃ after, index.remove id = .ok (after, some entry.placement) := by
          rw [Index.remove, if_neg top, found]
          exact ⟨_, if_neg inhabited⟩
        obtain ⟨after, success⟩ := success
        rw [if_neg inhabited, perform_remove_ok success]
        rfl
    · have success : index.remove id = .ok (index, none) := by
        rw [Index.remove, if_neg top, Table.entry?_eq_none registered]
      rw [if_neg registered, perform_remove_ok success]
      rfl

theorem answer_clearScope (valid : index.table.Consistent) (id : PlacementId) :
    ((clearScope id).perform index).2 =
      if index.contains id = true then .ok (.cleared (index.table.countWhere (index.table.Cleared id)))
      else .error (.notInSession id) := by
  by_cases registered : index.contains id = true
  · obtain ⟨cleared, removed, success⟩ := Index.clearScope_counts valid registered
    rw [if_pos registered, perform_clearScope_ok success]
  · rw [if_neg registered, perform_clearScope_error (clearScope_missing valid registered)]

/-- A call changes the entries it touches, to what it leaves there, and no others. -/
structure Performs (index : Index) (call : IndexCall) (after : Index) : Prop where
  limit : after.maxPathDepth = index.maxPathDepth
  effect : ∃ event, Table.Effect index.table event after.table ∧
    ∀ placement scope, event = some (.inserted placement scope) → placement.id ∈ call.offered
  touched : ∀ id, call.Touches index id → after.table.entry? id = call.leaves
  untouched : ∀ id, ¬ call.Touches index id → after.table.entry? id = index.table.entry? id

/-- A call that touches nothing. -/
theorem performs_nothing (nothing : ∀ id, ¬ call.Touches index id) : Performs index call index where
  limit := rfl
  effect := ⟨none, .nothing, fun _ _ same => by cases same⟩
  touched id touches := absurd touches (nothing id)
  untouched _ _ := rfl

theorem performs_insert (index : Index) (placement : Placement) (scope : PlacementId) :
    Performs index (insert placement scope) ((insert placement scope).perform index).1 := by
  rw [perform_insert]
  split
  · rename_i registered
    refine ⟨rfl, ⟨_, .inserted registered, ?_⟩, ?_, ?_⟩
    · intro other within same
      cases same
      exact List.mem_singleton_self _
    · intro id touches
      rw [Table.entry?_add, if_pos touches.1.symm]
      rfl
    · intro id elsewhere
      rw [Table.entry?_add, if_neg fun same => elsewhere ⟨same.symm, registered⟩]
  · rename_i missing
    exact performs_nothing fun id touches => missing touches.2

theorem remove_of_leaf (inner : id ≠ index.rootId) (leaf : index.members id = []) :
    ∃ after removed, index.remove id = .ok (after, removed) := by
  have vacant : ¬ 0 < index.memberCount id := by simp [Index.memberCount, leaf]
  rw [Index.remove, if_neg inner]
  cases index.table.entry? id with
  | none => exact ⟨_, _, rfl⟩
  | some entry => exact ⟨_, _, if_neg vacant⟩

theorem performs_remove (valid : index.table.Consistent) (id : PlacementId) :
    Performs index (remove id) ((remove id).perform index).1 := by
  cases result : index.remove id with
  | error error =>
    rw [perform_remove_error result]
    apply performs_nothing
    intro other touches
    obtain ⟨after, removed, success⟩ := remove_of_leaf touches.2.1 touches.2.2
    cases result.symm.trans success
  | ok outcome =>
    obtain ⟨after, removed⟩ := outcome
    rw [perform_remove_ok result]
    obtain ⟨inner, unchanged | taken⟩ := Index.remove_ok result
    · obtain ⟨rfl, _, missing⟩ := unchanged
      refine ⟨rfl, ⟨none, .nothing, fun _ _ same => by cases same⟩, ?_, fun _ _ => rfl⟩
      intro other touches
      rw [touches.1]
      exact Table.entry?_eq_none missing
    · obtain ⟨entry, found, leaf, _, rfl⟩ := taken
      have pruned := Table.removeEntry_prunes valid (Table.scope?_of_found found)
      refine ⟨rfl, ⟨_, .removed inner leaf pruned, fun _ _ same => by cases same⟩, ?_, ?_⟩
      · intro other touches
        exact pruned.entry_gone touches.1
      · intro other elsewhere
        exact pruned.entry_kept fun same => elsewhere ⟨same, inner, leaf⟩

theorem performs_clearScope (valid : index.table.Consistent) (scope : PlacementId) :
    Performs index (clearScope scope) ((clearScope scope).perform index).1 := by
  by_cases registered : index.contains scope = true
  · obtain ⟨cleared, removed, count, success⟩ := Index.clearScope_registered registered
    obtain ⟨limit, effect⟩ := Index.clearScope_effect valid success
    rw [perform_clearScope_ok success]
    cases effect with
    | cleared pruned =>
      refine ⟨limit, ⟨_, .cleared pruned, fun _ _ same => by cases same⟩, ?_, ?_⟩
      · intro id touches
        exact pruned.entry_gone touches.2
      · intro id elsewhere
        exact pruned.entry_kept fun out => elsewhere ⟨registered, out⟩
  · rw [perform_clearScope_error (clearScope_missing valid registered)]
    exact performs_nothing fun id touches => registered touches.1

theorem Performs.rootId_eq {after : Index} (performs : Performs index call after) : after.rootId = index.rootId := by
  obtain ⟨event, effect, _⟩ := performs.effect
  exact effect.root_eq

/-- Nothing is registered under an identity that the call is to insert. -/
def Fresh (index : Index) (call : IndexCall) : Prop := ∀ id ∈ call.offered, index.contains id ≠ true

theorem Performs.consistent {after : Index} (performs : Performs index call after) (valid : index.table.Consistent)
    (fresh : call.Fresh index) : after.table.Consistent := by
  obtain ⟨event, effect, offers⟩ := performs.effect
  apply effect.consistent valid
  intro placement scope same
  exact fresh _ (offers placement scope same)

theorem performs (valid : index.table.Consistent) (call : IndexCall) : Performs index call (call.perform index).1 := by
  cases call with
  | insert placement scope => exact performs_insert index placement scope
  | remove id => exact performs_remove valid id
  | clearScope scope => exact performs_clearScope valid scope

end Perform

/-- Of two scopes around a placement, one is around the other. -/
theorem within_comparable {table : Table} {top other id : PlacementId} (one : table.Within top id)
    (another : table.Within other id) : table.Within top other ∨ table.Within other top := by
  obtain ⟨chain, ascent, above⟩ := one
  obtain ⟨again, same, around⟩ := another
  cases same.unique ascent
  obtain ⟨upper, higher, first⟩ := ascent.suffix above
  obtain ⟨lower, deeper, second⟩ := ascent.suffix around
  rcases List.suffix_or_suffix_of_suffix first second with inside | inside
  · exact .inl ⟨lower, deeper, inside.subset (List.mem_of_head? higher.head)⟩
  · exact .inr ⟨upper, higher, inside.subset (List.mem_of_head? deeper.head)⟩

theorem eq_target_of_withdrawn {call : IndexCall} {id : PlacementId} (withdrawn : id ∈ call.withdrawn) :
    id = call.target := by
  cases call with
  | insert placement scope => cases withdrawn
  | remove other => exact List.mem_singleton.mp withdrawn
  | clearScope scope => exact List.mem_singleton.mp withdrawn

/-- The index after a call, for another call that is independent of it. -/
structure Follows (index : Index) (call other : IndexCall) (after : Index) : Prop where
  valid : index.table.Consistent
  fresh : other.Fresh index
  independent : call.Independent index.table other
  performs : Performs index other after

namespace Follows
variable {index after : Index} {call other : IndexCall} {top id : PlacementId}

theorem validAfter (follows : Follows index call other after) : after.table.Consistent :=
  follows.performs.consistent follows.valid follows.fresh

theorem untouched_target (follows : Follows index call other after) : ¬ other.Touches index call.target := by
  intro touches
  have spares := follows.independent.spared
  cases other with
  | insert placement scope => exact spares.unnamed _ (List.mem_singleton_self _) (touches.1 ▸ List.mem_cons_self)
  | remove other => exact (spares.above _ (List.mem_singleton_self _)).1 touches.1.symm
  | clearScope scope =>
    exact (spares.above _ (List.mem_singleton_self _)).2 ((follows.valid.within_iff touches.1).mpr touches.2.2)

theorem entry_target (follows : Follows index call other after) :
    after.table.entry? call.target = index.table.entry? call.target :=
  follows.performs.untouched _ follows.untouched_target

theorem contains_target (follows : Follows index call other after) :
    after.contains call.target = true ↔ index.contains call.target = true := by
  rw [Index.contains, Index.contains, Table.contains_iff, Table.contains_iff, follows.entry_target]

/-- What the other call touches was not inside of what the call withdraws. -/
theorem not_within_before (follows : Follows index call other after) (withdrawn : top ∈ call.withdrawn)
    (touches : other.Touches index id) : ¬ index.table.Within top id := by
  intro within
  have spares := follows.independent.spares.above top withdrawn
  cases other with
  | insert placement scope =>
    rw [touches.1] at within
    exact follows.fresh _ (List.mem_singleton_self _) (follows.valid.contains_within within)
  | remove other =>
    rw [touches.1] at within
    exact spares.2 within
  | clearScope scope =>
    rcases within_comparable within ((follows.valid.within_iff touches.1).mpr touches.2.2) with inside | around
    · exact spares.2 inside
    · rw [eq_target_of_withdrawn withdrawn] at around
      exact (follows.independent.spared.above _ (List.mem_singleton_self _)).2 around

/-- Whatever is registered before and after the other call has the same scopes around it. -/
theorem within_of_registered (follows : Follows index call other after) (before : index.contains id = true)
    (still : after.contains id = true) : after.table.Within top id ↔ index.table.Within top id := by
  obtain ⟨event, effect, offers⟩ := follows.performs.effect
  obtain ⟨chain, ascent⟩ := follows.valid.ascent before
  have kept : after.table.Ascent id chain := by
    apply effect.ascent_kept follows.valid _ ascent still
    intro placement scope same
    exact follows.fresh _ (offers placement scope same)
  constructor
  · intro within
    obtain ⟨again, same, above⟩ := within
    exact ⟨chain, ascent, same.unique kept ▸ above⟩
  · intro within
    obtain ⟨again, same, above⟩ := within
    exact ⟨chain, kept, same.unique ascent ▸ above⟩

theorem not_registered_after (follows : Follows index call other after) (touches : other.Touches index id)
    (nothing : other.leaves = none) : ¬ after.table.Within top id := by
  intro within
  obtain ⟨entry, found⟩ := (Table.contains_iff ..).mp (follows.validAfter.contains_within within)
  rw [follows.performs.touched id touches, nothing] at found
  cases found

/-- What the other call touches is not inside of what the call withdraws. -/
theorem not_within_after (follows : Follows index call other after) (withdrawn : top ∈ call.withdrawn)
    (touches : other.Touches index id) : ¬ after.table.Within top id := by
  cases other with
  | insert placement scope =>
    intro within
    obtain ⟨chain, ascent, member⟩ := within
    have left := follows.performs.touched id touches
    have rooted : after.table.root = index.table.root := follows.performs.rootId_eq
    cases ascent with
    | root =>
      have unregistered := follows.fresh _ (List.mem_singleton_self _)
      rw [← touches.1, rooted] at unregistered
      exact unregistered follows.valid.contains_root
    | scope inside inner rest =>
      rw [Table.scope?, left] at inside
      cases inside
      rcases List.mem_cons.mp member with same | higher
      · rw [eq_target_of_withdrawn withdrawn, touches.1] at same
        exact follows.independent.spared.unnamed _ (List.mem_singleton_self _) (same ▸ List.mem_cons_self)
      · have still : after.contains scope = true := follows.validAfter.contains_of_ascent rest
        have before := (follows.within_of_registered touches.2 still).mp ⟨_, rest, higher⟩
        exact (follows.independent.spares.above top withdrawn).2 before
  | remove other => exact follows.not_registered_after touches rfl
  | clearScope scope => exact follows.not_registered_after touches rfl

/-- The other call leaves what is withdrawn, with all that is inside, as it is. -/
theorem within_iff (follows : Follows index call other after) (withdrawn : top ∈ call.withdrawn) :
    after.table.Within top id ↔ index.table.Within top id := by
  by_cases touches : other.Touches index id
  · exact iff_of_false (follows.not_within_after withdrawn touches) (follows.not_within_before withdrawn touches)
  · have same := follows.performs.untouched id touches
    by_cases before : index.contains id = true
    · have still : after.contains id = true := by
        rw [Index.contains, Table.contains_iff, same]
        exact (Table.contains_iff ..).mp before
      exact follows.within_of_registered before still
    · have missing : after.contains id ≠ true := by
        rw [Index.contains, Ne, Table.contains_iff, same]
        exact fun found => before ((Table.contains_iff ..).mpr found)
      exact iff_of_false (fun within => missing (follows.validAfter.contains_within within))
        (fun within => before (follows.valid.contains_within within))

theorem within_of_member {table : Table} (valid : table.Consistent) (listed : id ∈ table.members top) :
    table.Within top id :=
  (valid.within_iff (valid.contains_scope (valid.mem_members_iff.mp listed).2)).mpr (.single listed)

theorem mem_members_iff (follows : Follows index call other after) (withdrawn : top ∈ call.withdrawn) :
    id ∈ after.members top ↔ id ∈ index.members top := by
  by_cases touches : other.Touches index id
  · exact iff_of_false
      (fun listed => follows.not_within_after withdrawn touches (within_of_member follows.validAfter listed))
      (fun listed => follows.not_within_before withdrawn touches (within_of_member follows.valid listed))
  · have same := follows.performs.untouched id touches
    have rooted : after.table.root = index.table.root := follows.performs.rootId_eq
    rw [Index.members, Index.members, follows.validAfter.mem_members_iff, follows.valid.mem_members_iff, Table.scope?,
      Table.scope?, same, rooted]

theorem members_perm (follows : Follows index call other after) (withdrawn : top ∈ call.withdrawn) :
    (after.members top).Perm (index.members top) :=
  (List.perm_ext_iff_of_nodup (follows.validAfter.nodup_members top) (follows.valid.nodup_members top)).mpr
    fun _ => follows.mem_members_iff withdrawn

theorem cleared_iff (follows : Follows index call other after) (withdrawn : top ∈ call.withdrawn)
    (before : index.contains top = true) (still : after.contains top = true) :
    after.table.Cleared top id ↔ index.table.Cleared top id := by
  have rooted : after.table.root = index.table.root := follows.performs.rootId_eq
  rw [Table.Cleared, Table.Cleared, rooted, ← follows.valid.within_iff before, ← follows.validAfter.within_iff still,
    follows.within_iff withdrawn]

/-- A call touches the same after another one that it is independent of. -/
theorem touches_iff (follows : Follows index call other after) : call.Touches after id ↔ call.Touches index id := by
  have registered := follows.contains_target
  cases call with
  | insert placement scope => exact and_congr_right fun _ => registered
  | remove target =>
    have members := follows.members_perm (List.mem_singleton_self _)
    have empty : after.members target = [] ↔ index.members target = [] :=
      ⟨fun nothing => (nothing ▸ members).symm.eq_nil, fun nothing => (nothing ▸ members).eq_nil⟩
    rw [Touches, Touches, follows.performs.rootId_eq, empty]
  | clearScope scope =>
    constructor
    · intro touches
      have before := registered.mp touches.1
      exact ⟨before, (follows.cleared_iff (List.mem_singleton_self _) before touches.1).mp touches.2⟩
    · intro touches
      have still := registered.mpr touches.1
      exact ⟨still, (follows.cleared_iff (List.mem_singleton_self _) touches.1 still).mpr touches.2⟩

/-- It finds as much to clear. -/
theorem countWhere_cleared (follows : Follows index call other after) (withdrawn : top ∈ call.withdrawn)
    (before : index.contains top = true) (still : after.contains top = true) :
    after.table.countWhere (after.table.Cleared top) = index.table.countWhere (index.table.Cleared top) := by
  classical
  have distinct : (index.table.entries.keys.filter fun id => index.table.Cleared top id).Nodup :=
    Std.TreeMap.nodup_keys.filter _
  rw [← Table.length_eq_countWhere distinct, ← Table.length_eq_countWhere distinct]
  · intro id
    rw [List.mem_filter, Table.mem_keys_iff, decide_eq_true_eq]
  · intro id
    rw [List.mem_filter, Table.mem_keys_iff, decide_eq_true_eq, follows.cleared_iff withdrawn before still]
    apply and_congr_left
    intro out
    have within := (follows.valid.within_iff before).mpr out.2
    exact iff_of_true (follows.valid.contains_within within)
      (follows.validAfter.contains_within ((follows.within_iff withdrawn).mpr within))

theorem answer_eq (follows : Follows index call other after) : (call.perform after).2 = (call.perform index).2 := by
  have registered := follows.contains_target
  cases call with
  | insert placement scope =>
    have same : after.contains scope = index.contains scope := Bool.eq_iff_iff.mpr registered
    rw [perform_insert, perform_insert, same]
    split <;> rfl
  | remove id =>
    have same : after.contains id = index.contains id := Bool.eq_iff_iff.mpr registered
    have count : after.memberCount id = index.memberCount id :=
      (follows.members_perm (List.mem_singleton_self _)).length_eq
    rw [answer_remove, answer_remove, follows.performs.rootId_eq, same, count]
  | clearScope scope =>
    have same : after.contains scope = index.contains scope := Bool.eq_iff_iff.mpr registered
    rw [answer_clearScope follows.validAfter, answer_clearScope follows.valid, same]
    split
    · rename_i before
      rw [follows.countWhere_cleared (List.mem_singleton_self _) before (same.trans before)]
    · rfl

/-- What is to be inserted is not touched by the other call. -/
theorem untouched_offered (follows : Follows index call other after) (fresh : call.Fresh index)
    (offered : id ∈ call.offered) : ¬ other.Touches index id := by
  intro touches
  have unnamed := follows.independent.spares.unnamed id offered
  cases other with
  | insert placement scope => exact unnamed (touches.1 ▸ List.mem_cons_of_mem _ (List.mem_singleton_self _))
  | remove other => exact unnamed (touches.1 ▸ List.mem_cons_self)
  | clearScope scope =>
    exact fresh id offered (follows.valid.contains_within ((follows.valid.within_iff touches.1).mpr touches.2.2))

theorem freshAfter (follows : Follows index call other after) (fresh : call.Fresh index) : call.Fresh after := by
  intro id offered registered
  obtain ⟨entry, found⟩ := (Table.contains_iff ..).mp registered
  rw [follows.performs.untouched id (follows.untouched_offered fresh offered)] at found
  exact fresh id offered ((Table.contains_iff ..).mpr ⟨entry, found⟩)

/-- No entry is touched by both calls. -/
theorem touches_apart (follows : Follows index call other after) (fresh : call.Fresh index)
    (touches : call.Touches index id) : ¬ other.Touches index id := by
  cases call with
  | insert placement scope => exact follows.untouched_offered fresh (touches.1 ▸ List.mem_singleton_self _)
  | remove target => exact touches.1 ▸ follows.untouched_target
  | clearScope scope =>
    intro both
    have inside := (follows.valid.within_iff touches.1).mpr touches.2.2
    exact follows.not_within_before (List.mem_singleton_self _) both inside

end Follows

/-- Equal entries leave no choice for the rest. -/
theorem agrees_of_entries {index other : Index} (valid : index.table.Consistent) (again : other.table.Consistent)
    (rooted : index.rootId = other.rootId) (limit : index.maxPathDepth = other.maxPathDepth)
    (same : ∀ id, index.table.entry? id = other.table.entry? id) : index.Agrees other where
  rootId := rooted
  maxPathDepth := limit
  find id := by rw [Index.find, Index.find, same]
  scopeOf id := by rw [Index.scopeOf, Index.scopeOf, same]
  members scope := by
    have root : index.table.root = other.table.root := rooted
    rw [List.perm_iff_count]
    intro id
    rw [Index.members, Index.members, valid.count_members, again.count_members, Table.scope?, Table.scope?, same, root]

variable {index : Index} {one other : IndexCall}

theorem follows_of_independent (valid : index.table.Consistent) (fresh : other.Fresh index)
    (independent : one.Independent index.table other) : Follows index one other (other.perform index).1 :=
  ⟨valid, fresh, independent, performs valid other⟩

/-- Independent calls leave the same behind in either order. -/
theorem perform_comm (valid : index.table.Consistent) (first : one.Fresh index) (second : other.Fresh index)
    (independent : one.Independent index.table other) :
    (one.perform (other.perform index).1).1.Agrees (other.perform (one.perform index).1).1 := by
  have behind := follows_of_independent valid second independent
  have ahead := follows_of_independent valid first independent.symm
  have later := performs behind.validAfter one
  have earlier := performs ahead.validAfter other
  apply agrees_of_entries
  · exact later.consistent behind.validAfter (behind.freshAfter first)
  · exact earlier.consistent ahead.validAfter (ahead.freshAfter second)
  · rw [later.rootId_eq, earlier.rootId_eq, behind.performs.rootId_eq, ahead.performs.rootId_eq]
  · rw [later.limit, earlier.limit, behind.performs.limit, ahead.performs.limit]
  · intro id
    by_cases touches : one.Touches index id
    · have apart := behind.touches_apart first touches
      rw [later.touched id (behind.touches_iff.mpr touches), earlier.untouched id (mt ahead.touches_iff.mp apart),
        ahead.performs.touched id touches]
    · rw [later.untouched id (mt behind.touches_iff.mp touches)]
      by_cases also : other.Touches index id
      · rw [behind.performs.touched id also, earlier.touched id (ahead.touches_iff.mpr also)]
      · rw [behind.performs.untouched id also, earlier.untouched id (mt ahead.touches_iff.mp also),
          ahead.performs.untouched id touches]

end IndexCall

/-- After every run of calls, two further ones that are independent of each other and insert nothing under an identity
used before are answered alike in either order, with a value or an error, and lead to the same placements in the same
scopes. -/
theorem run_commutes (root : Placement) (maxPathDepth : Nat) (mutations : List Mutation)
    (fresh : FreshIds root.id mutations) (one other : IndexCall)
    (unused : ∀ id ∈ one.offered ++ other.offered, id ∉ root.id :: mutations.flatMap Mutation.offered)
    (independent : one.Independent (Recorded.run root maxPathDepth mutations).index.table other) :
    let index := (Recorded.run root maxPathDepth mutations).index
    let first := one.perform index
    let second := other.perform index
    (one.perform second.1).2 = first.2 ∧ (other.perform first.1).2 = second.2 ∧
      (one.perform second.1).1.Agrees (other.perform first.1).1 := by
  intro index first second
  have sound := Recorded.run_sound root maxPathDepth mutations fresh
  have new (call : IndexCall) (all : ∀ id ∈ call.offered, id ∈ one.offered ++ other.offered) : call.Fresh index :=
    fun id offered registered => unused id (all id offered) (sound.known registered)
  have freshOne := new one fun _ offered => List.mem_append_left _ offered
  have freshOther := new other fun _ offered => List.mem_append_right _ offered
  have behind := IndexCall.follows_of_independent sound.consistent freshOther independent
  have ahead := IndexCall.follows_of_independent sound.consistent freshOne independent.symm
  exact ⟨behind.answer_eq, ahead.answer_eq, IndexCall.perform_comm sound.consistent freshOne freshOther independent⟩

/-- Two members of one scope, the one cleared with what is inside and the other removed. -/
theorem run_commutes_trial :
    let index := (Recorded.run Trial.root 5 Trial.planted).index
    let clear := IndexCall.clearScope Trial.part.id
    let remove := IndexCall.remove Trial.echo.id
    FreshIds Trial.root.id Trial.planted ∧ clear.Independent index.table remove ∧
    (clear.perform (remove.perform index).1).2 = .ok (.cleared 2) ∧
    (remove.perform (clear.perform index).1).2 = .ok (.removed true) ∧
    (clear.perform (remove.perform index).1).1.Agrees (remove.perform (clear.perform index).1).1 := by
  intro index clear remove
  have fresh : FreshIds Trial.root.id Trial.planted := by decide
  have track : index.table.Ascent Trial.track.id [Trial.track.id, index.table.root] :=
    .scope (by decide +kernel) (by decide +kernel) .root
  have part : index.table.Ascent Trial.part.id [Trial.part.id, Trial.track.id, index.table.root] :=
    .scope (by decide +kernel) (by decide +kernel) track
  have echo : index.table.Ascent Trial.echo.id [Trial.echo.id, Trial.track.id, index.table.root] :=
    .scope (by decide +kernel) (by decide +kernel) track
  have independent : clear.Independent index.table remove := by
    constructor
    · refine ⟨List.forall_mem_singleton.mpr ⟨by decide, fun within => ?_⟩, List.forall_mem_nil _⟩
      obtain ⟨chain, ascent, above⟩ := within
      exact absurd (echo.unique ascent ▸ above) (by decide +kernel)
    · refine ⟨List.forall_mem_singleton.mpr ⟨by decide, fun within => ?_⟩, List.forall_mem_nil _⟩
      obtain ⟨chain, ascent, above⟩ := within
      exact absurd (part.unique ascent ▸ above) (by decide +kernel)
  obtain ⟨cleared, removed, agrees⟩ :=
    run_commutes Trial.root 5 Trial.planted fresh clear remove (List.forall_mem_nil _) independent
  have two : (clear.perform index).2 = .ok (.cleared 2) := by rfl
  have found : (remove.perform index).2 = .ok (.removed true) := by rfl
  exact ⟨fresh, independent, cleared.trans two, removed.trans found, agrees⟩

end MediaSession
