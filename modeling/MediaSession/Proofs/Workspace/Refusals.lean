import MediaSession.Proofs.Workspace.Effects

/-!
When calls that change a workspace are refused, and what a call leaves behind, refused or not. The checks are made in a
fixed order, before anything changes; what comes after them can not fail.
-/
namespace MediaSession

/-- How many registered placements lie directly in a scope; the root, which names itself, does not count. -/
def Index.population (index : Index) (id : PlacementId) : Nat :=
  index.ids.countP fun member => member ≠ index.rootId ∧ index.scopeOf member = .ok id

theorem Index.memberCount_eq {index : Index} (valid : index.table.Consistent) (id : PlacementId) :
    index.memberCount id = index.population id := by
  have same : (index.members id).Perm
      (index.ids.filter fun member => member ≠ index.rootId ∧ index.scopeOf member = .ok id) := by
    refine (List.perm_ext_iff_of_nodup (valid.nodup_members id) (Std.TreeMap.nodup_keys.filter _)).mpr fun member => ?_
    rw [List.mem_filter, decide_eq_true_eq, Index.scopeOf_ok_iff, Table.mem_keys_iff]
    refine valid.mem_members_iff.trans (iff_and_self.mpr fun inside => ?_)
    exact Table.contains_of_scope? inside.2
  rw [Index.memberCount, Index.population, List.countP_eq_length_filter, same.length_eq]

/-- An identity, a placement, or whatever another reference leads to. -/
inductive RefSource where
  | identity (id : PlacementId)
  | placement (placement : Placement)
  | placementRef (reference : PlacementRef)
  | objectRef (reference : ObjectRef)

namespace RefSource

def locate : RefSource → Except SessionError PlacementId
  | identity target => .ok target
  | placement placed => .ok placed.id
  | placementRef reference => reference.locate
  | objectRef reference => reference.locate

def target : RefSource → Option PlacementId
  | identity target => some target
  | placement placed => some placed.id
  | placementRef reference => reference.id
  | objectRef reference => reference.id

/-- What is said of a source that leads nowhere. -/
def vacancy : RefSource → SessionError
  | objectRef _ => .inactiveReference
  | _ => .unboundReference

theorem locate_eq (source : RefSource) : source.locate = source.target.elim (.error source.vacancy) .ok := by
  rcases source with id | placement | ⟨view, _ | id⟩ | reference
  · rfl
  · rfl
  · rfl
  · rfl
  · rw [locate, target, ObjectRef.locate]
    cases reference.id <;> rfl

end RefSource

namespace Workspace
variable {ws : Workspace} {used : List PlacementId}

/-- What the calls answer, with all their failures in the order of the checks. -/
structure Answers (ws : Workspace) : Prop where
  insert : ∀ placement scope, (ws.insert placement scope).1 =
    if ws.index.contains scope then .ok () else .error (.invalidScope (.noSuchScope placement scope))
  insertAs : ∀ view placement scope, (ws.insertAs view placement scope).1 =
    if ¬ placement.admits view then .error (.typeMismatch placement.id view placement.object.content)
    else if ¬ ws.index.contains scope then .error (.invalidScope (.noSuchScope placement scope))
    else .ok ()
  remove : ∀ id, (ws.remove id).1 =
    if id = ws.index.rootId then .error (.modelRoot id)
    else if 0 < ws.index.population id then .error (.nonEmptyScope id (ws.index.population id))
    else .ok (ws.index.contains id)
  clearScope : ∀ id, (ws.clearScope id).1 =
    if ws.index.contains id then .ok (ws.index.table.countWhere (ws.index.table.Cleared id))
    else .error (.notInSession id)
  activate : ∀ name (source : RefSource), (ws.activate name source.locate).1 =
    match source.target with
    | none => .error source.vacancy
    | some id =>
      match ws.index.find id with
      | .error _ => .error (.notInSession id)
      | .ok placement =>
        if placement.admits (ws.ref name).view then .ok () else .error (.invalidReference id (ws.ref name).view)
  attach : ∀ name child view placement, (ws.attach name child view placement).1 =
    match (ws.ref name).id with
    | none => .error .inactiveReference
    | some scope =>
      if ¬ placement.admits view then .error (.invalidReference placement.id view)
      else if ¬ ws.index.contains scope then .error (.invalidScope (.noSuchScope placement scope))
      else .ok ()
  purge : ∀ name, (ws.purge name).1 =
    match (ws.ref name).id with
    | none => .ok 0
    | some id => if ws.index.contains id then .ok (ws.index.table.countWhere (ws.index.table.Cleared id)) else .ok 0

theorem fst_settle (ws : Workspace) (placement : Placement) {α : Type} (insertion : Except SessionError (Index × α)) :
    (ws.settle placement insertion).1 = insertion.map fun _ => () := by
  cases insertion <;> rfl

theorem fst_insert (ws : Workspace) (placement : Placement) (scope : PlacementId) :
    (ws.insert placement scope).1 =
      if ws.index.contains scope then .ok () else .error (.invalidScope (.noSuchScope placement scope)) := by
  rw [Workspace.insert, fst_settle, Index.insert]
  split <;> rfl

theorem fst_insertAs (ws : Workspace) (view : ViewType) (placement : Placement) (scope : PlacementId) :
    (ws.insertAs view placement scope).1 =
      if ¬ placement.admits view then .error (.typeMismatch placement.id view placement.object.content)
      else if ¬ ws.index.contains scope then .error (.invalidScope (.noSuchScope placement scope))
      else .ok () := by
  rw [Workspace.insertAs, fst_settle, Index.insertAs]
  by_cases admits : placement.admits view <;> by_cases registered : ws.index.contains scope <;>
    simp [admits, registered, Index.insert, Except.map]

/-- An unregistered placement has no members, so it does not matter which of the two is asked first. -/
theorem Sound.fst_remove (sound : ws.Sound used) (id : PlacementId) :
    (ws.remove id).1 =
      if id = ws.index.rootId then .error (.modelRoot id)
      else if 0 < ws.index.population id then .error (.nonEmptyScope id (ws.index.population id))
      else .ok (ws.index.contains id) := by
  have valid : ws.index.table.Consistent := sound.stocked.indexed.consistent
  rw [← Index.memberCount_eq valid, Workspace.remove, Index.remove]
  by_cases top : id = ws.index.rootId
  · simp [top, fail]
  rw [if_neg top, if_neg top]
  cases found : ws.index.table.entry? id with
  | none =>
    have missing : ws.index.table.contains id ≠ true := fun registered => by
      obtain ⟨entry, present⟩ := (Table.contains_iff _ id).mp registered
      cases found.symm.trans present
    have empty : ws.index.memberCount id = 0 := congrArg List.length (valid.members_eq_nil missing)
    simp [empty, Index.contains, missing, done]
  | some entry =>
    have registered : ws.index.contains id = true := (Table.contains_iff _ id).mpr ⟨entry, found⟩
    by_cases inhabited : 0 < ws.index.memberCount id <;> simp [inhabited, registered, fail, done]

theorem Sound.fst_clearScope (sound : ws.Sound used) (id : PlacementId) :
    (ws.clearScope id).1 =
      if ws.index.contains id then .ok (ws.index.table.countWhere (ws.index.table.Cleared id))
      else .error (.notInSession id) := by
  have valid : ws.index.table.Consistent := sound.stocked.indexed.consistent
  by_cases registered : ws.index.contains id = true
  · obtain ⟨cleared, removed, success⟩ := Index.clearScope_counts valid registered
    rw [Workspace.clearScope, success, if_pos registered]
    rfl
  · rw [Workspace.clearScope, IndexCall.clearScope_missing valid registered, if_neg registered]
    rfl

/-- A reference that leads to a registered placement already has passed the check of types. -/
theorem Sound.fst_activate (sound : ws.Sound used) (name : String) (source : RefSource) :
    (ws.activate name source.locate).1 =
      match source.target with
      | none => .error source.vacancy
      | some id =>
        match ws.index.find id with
        | .error _ => .error (.notInSession id)
        | .ok placement =>
          if placement.admits (ws.ref name).view then .ok ()
          else .error (.invalidReference id (ws.ref name).view) := by
  rw [source.locate_eq]
  cases source.target with
  | none => rfl
  | some id =>
    have answer : (ws.activate name (.ok id)).1 = ((ws.ref name).activate ws.index id).map fun _ => () := by
      rw [Workspace.activate]
      cases (ws.ref name).activate ws.index id <;> rfl
    dsimp only [Option.elim]
    rw [answer]
    cases found : ws.index.find id with
    | error error =>
      have missing : ws.index.contains id ≠ true := fun registered => by
        obtain ⟨placement, present⟩ := Index.find_registered registered
        cases found.symm.trans present
      rw [ObjectRef.activate, if_neg fun already => missing already.2, Index.find_missing missing]
      rfl
    | ok placement =>
      dsimp only
      by_cases already : (ws.ref name).id = some id ∧ ws.index.contains id = true
      · have stays : (ws.ref name).activate ws.index id = .ok (ws.ref name) := if_pos already
        obtain ⟨again, present, led, vouches⟩ := sound.activated stays
        cases found.symm.trans present
        have held : (ws.ref name).held = some ⟨id, placement.object⟩ := congrArg ObjectRef.held led
        have admits : placement.admits (ws.ref name).view = true := (vouches _ held).2.1
        rw [stays, if_pos admits]
        rfl
      · rw [ObjectRef.activate_found already found]
        split <;> rfl

theorem fst_attach (ws : Workspace) (name child : String) (view : ViewType) (placement : Placement) :
    (ws.attach name child view placement).1 =
      match (ws.ref name).id with
      | none => .error .inactiveReference
      | some scope =>
        if ¬ placement.admits view then .error (.invalidReference placement.id view)
        else if ¬ ws.index.contains scope then .error (.invalidScope (.noSuchScope placement scope))
        else .ok () := by
  have answer : (ws.attach name child view placement).1 =
      ((ws.ref name).attach ws.index view placement).1.map fun _ => () := by
    unfold Workspace.attach
    dsimp only
    split
    · rename_i attached
      exact (congrArg (fun whole => whole.1.map fun _ => ()) attached).symm
    · rename_i refused
      exact (congrArg (fun whole => whole.1.map fun _ => ()) refused).symm
  rw [answer]
  cases bound : (ws.ref name).id with
  | none =>
    rw [ObjectRef.attach_inactive view placement bound]
    rfl
  | some scope =>
    rw [ObjectRef.attach_bound view placement bound]
    by_cases admits : placement.admits view = true <;> by_cases registered : ws.index.contains scope = true <;>
      simp [admits, registered, Except.map]

theorem Sound.fst_purge (sound : ws.Sound used) (name : String) :
    (ws.purge name).1 =
      match (ws.ref name).id with
      | none => .ok 0
      | some id =>
        if ws.index.contains id then .ok (ws.index.table.countWhere (ws.index.table.Cleared id)) else .ok 0 := by
  have answer : (ws.purge name).1 = ((ws.ref name).purge ws.index).map fun told => told.2.2 := by
    rw [Workspace.purge]
    cases (ws.ref name).purge ws.index <;> rfl
  rw [answer, ObjectRef.purge]
  cases (ws.ref name).id with
  | none => rfl
  | some id =>
    dsimp only
    have valid : ws.index.table.Consistent := sound.stocked.indexed.consistent
    by_cases registered : ws.index.contains id = true
    · obtain ⟨cleared, removed, success⟩ := Index.clearScope_counts valid registered
      rw [if_pos registered, if_pos registered, success]
      rfl
    · rw [if_neg registered, if_neg registered]
      rfl

theorem Sound.answers (sound : ws.Sound used) : ws.Answers where
  insert := fst_insert ws
  insertAs := fst_insertAs ws
  remove := sound.fst_remove
  clearScope := sound.fst_clearScope
  activate := sound.fst_activate
  attach := fst_attach ws
  purge := sound.fst_purge

/-- A call that fails, and the placement handed over in it, if any. -/
inductive Fails (ws : Workspace) : WorkspaceCall → Option Placement → Prop where
  | insert {id scope : PlacementId} {placement : Placement} {error : SessionError}
      (pooled : ws.pool[id]? = some placement) (failed : (ws.insert placement scope).1 = .error error) :
      Fails ws (.insert id scope) (some placement)
  | insertAs {view : ViewType} {id scope : PlacementId} {placement : Placement} {error : SessionError}
      (pooled : ws.pool[id]? = some placement) (failed : (ws.insertAs view placement scope).1 = .error error) :
      Fails ws (.insertAs view id scope) (some placement)
  | remove {id : PlacementId} {error : SessionError} (failed : (ws.remove id).1 = .error error) :
      Fails ws (.remove id) none
  | clearScope {id : PlacementId} {error : SessionError} (failed : (ws.clearScope id).1 = .error error) :
      Fails ws (.clearScope id) none
  | activate {name : String} {source : Except SessionError PlacementId} {error : SessionError}
      (failed : (ws.activate name source).1 = .error error) : Fails ws (.activate name source) none
  | attach {name child : String} {view : ViewType} {id : PlacementId} {placement : Placement} {error : SessionError}
      (pooled : ws.pool[id]? = some placement) (failed : (ws.attach name child view placement).1 = .error error) :
      Fails ws (.attach name child view id) (some placement)

/-- Everything is as it was, but for a placement that was given up together with its share of the object. -/
structure LeftAs (ws next : Workspace) (lost : Option Placement) : Prop where
  context : next.context = ws.context
  refs : next.refs = ws.refs
  pool : ∀ id : PlacementId, next.pool[id]? = if lost.any (·.id = id) then none else ws.pool[id]?
  owners : ∀ object, next.ledger.owners object + holding (lost.map Placement.object).toList object.identity =
    ws.ledger.owners object

theorem leftAs_self (ws : Workspace) : ws.LeftAs ws none :=
  ⟨rfl, rfl, fun _ => rfl, fun _ => rfl⟩

/-- The placement that is given up is one of the owners counted. -/
theorem Sound.leftAs_without (sound : ws.Sound used) {placement : Placement}
    (pooled : ws.pool[placement.id]? = some placement) : ws.LeftAs (ws.without placement) (some placement) where
  context := rfl
  refs := rfl
  pool id := by simp [without, Std.TreeMap.getElem?_erase]
  owners object := by
    have placed : ws.stock.Places placement.id placement.object := .inl ⟨placement, pooled, rfl⟩
    have counted := sound.accounts.counted object.identity
    have fewer := ws.ledger.counts_release placement.object object.identity
    change (ws.ledger.release placement.object).counts.getD object.identity 0 + holding [placement.object] _ =
      ws.ledger.counts.getD object.identity 0
    rw [fewer, holding_cons]
    split
    · rename_i same
      have owner : 0 < holding ws.owned object.identity := List.countP_pos_iff.mpr
        ⟨placement.object, List.mem_append_left _ placed.mem_objects, decide_eq_true same⟩
      exact Nat.sub_add_cancel (counted ▸ owner)
    · rfl

variable {placement : Placement} {id : PlacementId} {name child : String} {view : ViewType} {error : SessionError}

theorem settle_failed {α : Type} {insertion : Except SessionError (Index × α)}
    (failed : (ws.settle placement insertion).1 = .error error) :
    (ws.settle placement insertion).2 = ws.without placement := by
  cases insertion with
  | ok after => cases failed
  | error error => rfl

theorem remove_failed (failed : (ws.remove id).1 = .error error) : (ws.remove id).2 = ws := by
  unfold Workspace.remove at failed ⊢
  split at failed
  · rfl
  · cases failed

theorem clearScope_failed (failed : (ws.clearScope id).1 = .error error) : (ws.clearScope id).2 = ws := by
  unfold Workspace.clearScope at failed ⊢
  split at failed
  · rfl
  · cases failed

theorem activate_failed {source : Except SessionError PlacementId}
    (failed : (ws.activate name source).1 = .error error) : (ws.activate name source).2 = ws := by
  rcases ws.activate_cases name source with ⟨_, _, _, _, done⟩ | ⟨_, refused⟩
  · rw [done] at failed
    cases failed
  · rw [refused]
    rfl

theorem attach_failed (failed : (ws.attach name child view placement).1 = .error error) :
    (ws.attach name child view placement).2 = ws.without placement := by
  rcases ws.attach_cases name child view placement with ⟨_, _, _, _, _, done⟩ | ⟨_, refused⟩
  · rw [done] at failed
    cases failed
  · rw [refused]
    rfl

theorem Sound.leftAs_step (sound : ws.Sound used) {call : WorkspaceCall} {lost : Option Placement}
    (fails : ws.Fails call lost) : ws.LeftAs (ws.step call) lost := by
  have unchanged {next : Workspace} (same : next = ws) : ws.LeftAs next none := same ▸ ws.leftAs_self
  have given {id : PlacementId} {placement : Placement} {act : Placement → Outcome Unit}
      (pooled : ws.pool[id]? = some placement) (left : (act placement).2 = ws.without placement) :
      ws.LeftAs (ws.withPooled id act) (some placement) := by
    have key : placement.id = id := sound.stocked.keyed pooled
    rw [Workspace.withPooled, pooled]
    dsimp only
    rw [left]
    exact sound.leftAs_without (key ▸ pooled)
  cases fails with
  | insert pooled failed => exact given pooled (settle_failed failed)
  | insertAs pooled failed => exact given pooled (settle_failed failed)
  | remove failed => exact unchanged (remove_failed failed)
  | clearScope failed => exact unchanged (clearScope_failed failed)
  | activate failed => exact unchanged (activate_failed failed)
  | attach pooled failed => exact given pooled (attach_failed failed)

end Workspace

/-- After every run, calls that change the workspace are refused for the listed reasons and for no other. One that is
refused changes nothing but what becomes of a placement handed over, and one that succeeds changes just what it is
about. -/
theorem run_refuses (maxPathDepth : Nat) (rootId : PlacementId) (root : MediaObject) (calls : List WorkspaceCall)
    (fresh : WorkspaceCall.Fresh rootId calls) :
    let ws := Workspace.run maxPathDepth rootId root calls
    ws.Answers ∧ (∀ call lost, ws.Fails call lost → ws.LeftAs (ws.step call) lost) ∧
    ∀ call change taken led, ws.Succeeds call change taken led → ws.Becomes (ws.step call) change taken led := by
  intro ws
  have sound : ws.Sound _ := Workspace.run_sound maxPathDepth rootId root calls fresh
  exact ⟨sound.answers, fun _ _ fails => sound.leftAs_step fails, fun _ _ _ _ succeeds => sound.becomes_step succeeds⟩

namespace Trial

/-- A placement waits to be inserted, and references of two types are at hand. -/
def pending : List WorkspaceCall :=
  stocking ++ [.insertAs .fork part.id track.id, .newRef "host" .fork, .activate "host" (.ok track.id),
    .newRef "free" .effect, .create blur.id (.effect "blur") []]

end Trial

theorem run_refuses_trial :
    let ws := Workspace.run 8 Trial.root.id (.root "trial") Trial.pending
    let blur : Placement := { id := Trial.blur.id, object := ⟨2, .effect "blur"⟩ }
    let attached := ws.step (.attach "host" "child" .effect Trial.blur.id)
    WorkspaceCall.Fresh Trial.root.id Trial.pending ∧
    (ws.remove Trial.track.id).1 = .error (.nonEmptyScope Trial.track.id 1) ∧
    (ws.activate "free" (PlacementRef.locate ⟨.effect, none⟩)).1 = .error .unboundReference ∧
    (ws.activate "free" (.ok Trial.track.id)).1 = .error (.invalidReference Trial.track.id .effect) ∧
    (ws.attach "host" "child" .fork blur).1 = .error (.invalidReference Trial.blur.id .fork) ∧
    ws.Fails (.attach "host" "child" .fork Trial.blur.id) (some blur) ∧
    (ws.step (.attach "host" "child" .fork Trial.blur.id)).ledger.owners blur.object = 0 ∧
    ws.Succeeds (.attach "host" "child" .effect Trial.blur.id) (some (.insert blur Trial.track.id)) (some blur)
      (some ("child", .active .effect Trial.blur.id blur.object)) ∧
    attached.ref "child" = .active .effect Trial.blur.id blur.object ∧
    attached.index.table.entry? Trial.blur.id = some ⟨blur, Trial.track.id⟩ := by
  intro ws blur attached
  have fresh : WorkspaceCall.Fresh Trial.root.id Trial.pending := by decide
  obtain ⟨answers, left, behind⟩ := run_refuses 8 Trial.root.id (.root "trial") Trial.pending fresh
  have refused : (ws.attach "host" "child" .fork blur).1 = .error (.invalidReference Trial.blur.id .fork) :=
    (answers.attach "host" "child" .fork blur).trans (by decide +kernel)
  have fails : ws.Fails (.attach "host" "child" .fork Trial.blur.id) (some blur) :=
    .attach (by decide +kernel) refused
  have owners := (left _ _ fails).owners blur.object
  have before : ws.ledger.owners blur.object = 1 := by decide +kernel
  have share : holding [blur.object] blur.object.identity = 1 := by decide
  have succeeds : ws.Succeeds (.attach "host" "child" .effect Trial.blur.id) (some (.insert blur Trial.track.id))
      (some blur) (some ("child", .active .effect Trial.blur.id blur.object)) :=
    .attach (by decide +kernel) (by decide +kernel)
      ((answers.attach "host" "child" .effect blur).trans (by decide +kernel))
  have becomes := behind _ _ _ _ succeeds
  have registered : ws.index.contains Trial.track.id = true := by decide +kernel
  refine ⟨fresh, (answers.remove Trial.track.id).trans (by decide +kernel), ?_, ?_, refused, fails, ?_, succeeds,
    becomes.leads _ _ rfl, (becomes.performs _ rfl).touched _ ⟨rfl, registered⟩⟩
  · exact (answers.activate "free" (.placementRef ⟨.effect, none⟩)).trans rfl
  · exact (answers.activate "free" (.identity Trial.track.id)).trans (by decide +kernel)
  · exact Nat.add_right_cancel (owners.trans (before.trans share.symm))

end MediaSession
