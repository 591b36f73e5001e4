import MediaSession.Proofs.Workspace.Sound

/-!
Owners of objects over the runs of a workspace. The count that is reported for an object is that of the placements
and active references which hold it, and a reference lets go of an object only when it is told to.
-/
namespace MediaSession
namespace Workspace
variable {ws : Workspace} {name : String} {call : WorkspaceCall}

/-- The owners of an object one by one: placements, wherever they are, and active references. -/
def holders (ws : Workspace) (object : SharedObject) : Nat :=
  (ws.stock.placements.countP fun placement => placement.object.identity = object.identity) +
    (valuesOf ws.refs).countP fun reference => reference.object.any fun held => held.identity = object.identity

theorem holders_eq (ws : Workspace) (object : SharedObject) :
    ws.holders object = holding ws.owned object.identity := by
  rw [holding, owned, List.countP_append, Stock.objects, List.countP_map, heldObjects, List.countP_filterMap]
  refine congrArg (_ + ·) (List.countP_congr fun reference _ => ?_)
  cases reference.object <;> simp

theorem Sound.owners_eq {used : List PlacementId} (sound : ws.Sound used) (object : SharedObject) :
    ws.ledger.owners object = ws.holders object :=
  (sound.accounts.owners_eq object).trans (ws.holders_eq object).symm

/-- The call gives the reference of a name up, or successfully leads it elsewhere. -/
def Releases (ws : Workspace) (name : String) : WorkspaceCall → Prop
  | .newRef other _ | .cloneRef _ other | .close other | .purge other | .dropRef other => other = name
  | .activate other source =>
    other = name ∧ (ws.activate other source).1 = .ok () ∧ ∀ id, source = .ok id → (ws.ref other).id ≠ some id
  | .attach parent child view id =>
    child = name ∧ ∃ placement, ws.pool[id]? = some placement ∧
      (ws.attach parent child view placement).1 = .ok ()
  | _ => False

theorem ref_of_refs {next : Workspace} (refs : next.refs = ws.refs) : next.ref name = ws.ref name := by
  rw [ref, refs, ref]

theorem refs_settle (ws : Workspace) (placement : Placement) {α : Type}
    (insertion : Except SessionError (Index × α)) :
    (ws.settle placement insertion).2.refs = ws.refs := by
  unfold settle
  dsimp only
  split <;> rfl

theorem refs_withPooled {id : PlacementId} {act : Placement → Outcome Unit}
    (kept : ∀ placement, (act placement).2.refs = ws.refs) : (ws.withPooled id act).refs = ws.refs := by
  unfold withPooled
  split
  · exact kept _
  · rfl

theorem ref_close {other : String} (apart : other ≠ name) : (ws.close other).ref name = ws.ref name :=
  (ref_setRef ..).trans (if_neg apart)

theorem ref_activate {other : String} {source : Except SessionError PlacementId}
    (kept : ¬ ws.Releases name (.activate other source)) : (ws.activate other source).2.ref name = ws.ref name := by
  rcases ws.activate_cases other source with ⟨id, led, asked, result, done⟩ | ⟨error, failed⟩
  · rw [done, Workspace.done, ref_setRef]
    split
    · rename_i same
      rcases ObjectRef.activate_ok result with ⟨here, _⟩ | ⟨away, _⟩
      · rw [here, same]
      · -- led elsewhere, so the call does concern it
        refine absurd ⟨same, congrArg Prod.fst done, fun target also => ?_⟩ kept
        cases asked.symm.trans also
        exact away
    · rfl
  · rw [failed]
    rfl

theorem ref_attach {parent child : String} {view : ViewType} {placement : Placement}
    (kept : child = name → (ws.attach parent child view placement).1 ≠ .ok ()) :
    (ws.attach parent child view placement).2.ref name = ws.ref name := by
  rcases ws.attach_cases parent child view placement with ⟨_, after, _, _, _, done⟩ | ⟨error, failed⟩
  · rw [done]
    exact (ref_setRef ..).trans (if_neg fun same => kept same (congrArg Prod.fst done))
  · rw [failed]
    rfl

/-- A reference stays what it is through every call that does not concern it, and every call that fails. -/
theorem ref_step (kept : ¬ ws.Releases name call) : (ws.step call).ref name = ws.ref name := by
  cases call with
  | create id content edits => exact ref_of_refs rfl
  | duplicate id copy =>
    change (ws.duplicate id copy).2.ref name = _
    unfold duplicate
    split <;> rfl
  | discard id =>
    change (ws.discard id).ref name = _
    unfold discard
    split <;> rfl
  | editPin id edits =>
    change (ws.editPin id edits).2.ref name = _
    unfold editPin
    split
    · rfl
    · split <;> rfl
  | editPinThrough reference edits =>
    unfold step
    dsimp only
    split <;> rfl
  | insert id scope => exact ref_of_refs (refs_withPooled fun placement => refs_settle ..)
  | insertAs view id scope => exact ref_of_refs (refs_withPooled fun placement => refs_settle ..)
  | remove id =>
    change (ws.remove id).2.ref name = _
    unfold remove
    split <;> rfl
  | clearScope id =>
    change (ws.clearScope id).2.ref name = _
    unfold clearScope
    split <;> rfl
  | clear => exact ref_of_refs rfl
  | newRef other view => exact (ref_setRef ..).trans (if_neg kept)
  | cloneRef source other => exact (ref_setRef ..).trans (if_neg kept)
  | activate other source => exact ref_activate kept
  | attach parent child view id =>
    change (ws.withPooled id fun placement => ws.attach parent child view placement).ref name = _
    unfold withPooled
    split
    · rename_i placement pooled
      exact ref_attach fun same success => kept ⟨same, placement, pooled, success⟩
    · rfl
  | close other => exact ref_close kept
  | purge other =>
    change (ws.purge other).2.ref name = _
    unfold purge
    split
    · rfl
    · exact (ref_close kept).trans (ref_of_refs rfl)
  | dropRef other =>
    change (ws.dropRef other).ref name = _
    exact (ref_dropRef ..).trans ((if_neg kept).trans (ref_close kept))

/-- None of some calls, made one after the other, gives the reference of a name up. -/
def Undisturbed (ws : Workspace) (name : String) : List WorkspaceCall → Prop
  | [] => True
  | call :: rest => ¬ ws.Releases name call ∧ (ws.step call).Undisturbed name rest

theorem ref_foldl {calls : List WorkspaceCall} (undisturbed : ws.Undisturbed name calls) :
    (calls.foldl step ws).ref name = ws.ref name := by
  induction calls generalizing ws with
  | nil => rfl
  | cons call rest ih => exact (ih undisturbed.2).trans (ref_step undisturbed.1)

/-- A reference that was led to a placement holds the object of the placement found. -/
theorem Sound.held_activated {used : List PlacementId} (sound : ws.Sound used)
    {source : Except SessionError PlacementId} (success : (ws.activate name source).1 = .ok ()) :
    ∃ id placement, source = .ok id ∧ ws.index.find id = .ok placement ∧
      ((ws.activate name source).2.ref name).held = some ⟨id, placement.object⟩ := by
  rcases ws.activate_cases name source with ⟨id, led, asked, result, done⟩ | ⟨error, failed⟩
  · obtain ⟨placement, found, rfl, _⟩ := sound.activated result
    refine ⟨id, placement, asked, found, ?_⟩
    rw [done]
    exact congrArg ObjectRef.held ((ref_setRef ..).trans (if_pos rfl))
  · rw [failed] at success
    cases success

theorem held_attached {parent child : String} {view : ViewType} {placement : Placement}
    (success : (ws.attach parent child view placement).1 = .ok ()) :
    ((ws.attach parent child view placement).2.ref child).held = some ⟨placement.id, placement.object⟩ := by
  rcases ws.attach_cases parent child view placement with ⟨_, after, _, _, _, done⟩ | ⟨error, failed⟩
  · rw [done]
    exact congrArg ObjectRef.held ((ref_setRef ..).trans (if_pos rfl))
  · rw [failed] at success
    cases success

end Workspace

/-- The counts of owners after every run of calls, and what references hold over the rest of it. -/
theorem run_keeps_accounts (maxPathDepth : Nat) (rootId : PlacementId) (root : MediaObject)
    (calls : List WorkspaceCall) (fresh : WorkspaceCall.Fresh rootId calls) :
    let ws := Workspace.run maxPathDepth rootId root calls
    (∀ placement ∈ ws.stock.placements, ws.ledger.owners placement.object = ws.holders placement.object) ∧
    (∀ name object, (ws.ref name).object = some object → (ws.ref name).useCount ws.ledger = ws.holders object) ∧
    (∀ name, (ws.ref name).isActive = false → (ws.ref name).useCount ws.ledger = 0) ∧
    (∀ name source, (ws.activate name source).1 = .ok () →
      ∃ id placement, source = .ok id ∧ ws.index.find id = .ok placement ∧
        ((ws.activate name source).2.ref name).held = some ⟨id, placement.object⟩) ∧
    (∀ name child view placement, (ws.attach name child view placement).1 = .ok () →
      ((ws.attach name child view placement).2.ref child).held = some ⟨placement.id, placement.object⟩) ∧
    ∀ name object, (ws.ref name).object = some object → ∀ later, ws.Undisturbed name later →
      ((Workspace.run maxPathDepth rootId root (calls ++ later)).ref name).object = some object := by
  intro ws
  have sound := Workspace.run_sound maxPathDepth rootId root calls fresh
  refine ⟨?_, ?_, ?_, ?_, ?_, ?_⟩
  · intro placement _
    exact sound.owners_eq placement.object
  · intro name object held
    rw [ObjectRef.useCount, held]
    exact sound.owners_eq object
  · intro name inactive
    have none : (ws.ref name).object = none :=
      Option.isNone_iff_eq_none.mp (by simpa [ObjectRef.isActive] using inactive)
    rw [ObjectRef.useCount, none]
  · intro name source success
    exact sound.held_activated success
  · intro name child view placement success
    exact Workspace.held_attached success
  · intro name object held later undisturbed
    rw [Workspace.run_append, Workspace.ref_foldl undisturbed]
    exact held

namespace Trial

/-- References are led to two placements of one object, copied and led astray, and the scope that holds all of
it is purged. -/
def ownership : List WorkspaceCall :=
  stocking ++ [.insertAs .fork part.id track.id, .newRef "first" .fork, .activate "first" (.ok part.id),
    .cloneRef "first" "second", .activate "second" (.ok track.id), .create blur.id (.effect "blur") [],
    .attach "first" "third" .effect blur.id, .activate "third" (.ok track.id), .purge "second"]

end Trial

theorem run_keeps_accounts_trial :
    let ws := Workspace.run 8 Trial.root.id (.root "trial") Trial.ownership
    WorkspaceCall.Fresh Trial.root.id Trial.ownership ∧ ws.index.size = 0 ∧
    (ws.ref "first").object = some ⟨1, .fork "track"⟩ ∧ (ws.ref "first").useCount ws.ledger = 1 ∧
    (ws.ref "second").useCount ws.ledger = 0 := by
  intro ws
  have fresh : WorkspaceCall.Fresh Trial.root.id Trial.ownership := by decide
  obtain ⟨_, counted, inactive, _⟩ := run_keeps_accounts 8 Trial.root.id (.root "trial") Trial.ownership fresh
  have held : (ws.ref "first").object = some ⟨1, .fork "track"⟩ := by decide +kernel
  have alone : ws.holders ⟨1, .fork "track"⟩ = 1 := by decide +kernel
  exact ⟨fresh, by decide +kernel, held, (counted "first" _ held).trans alone, inactive "second" (by decide +kernel)⟩

end MediaSession
